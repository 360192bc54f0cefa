/-!
# The entry point

What every kernel contains after its generated functions: the seed of a pixel, and the entry point
that traces its paths.
-/

namespace SphereTracer.Shader

/-- The lines of the text, in order. -/
def entryPointLines : List String := [
  "fn seed_pixel(x: u32, y: u32) -> u32 \x7b",
  "    let salt = pcg_hash(uniforms.seed ^ bitcast<u32>(uniforms.time));",
  "    return pcg_hash(x + pcg_hash(y + pcg_hash(uniforms.frame + salt)));",
  "\x7d",
  "",
  "@compute @workgroup_size(8, 8, 1)",
  "fn main(@builtin(global_invocation_id) gid: vec3<u32>) \x7b",
  "    let width = u32(uniforms.resolution.x);",
  "    let height = u32(uniforms.resolution.y);",
  "    if (gid.x >= width || gid.y >= height) \x7b",
  "        return;",
  "    \x7d",
  "    let index = gid.y * width + gid.x;",
  "    rng_state = seed_pixel(gid.x, gid.y);",
  "",
  "    let view = frame_setup();",
  "    let air = view.air;",
  "    let look = normalize(view.look_at - view.eye);",
  "    let up = normalize(view.up_hint - dot(look, view.up_hint) * look);",
  "    let right = cross(look, up);",
  "    let aspect = uniforms.resolution.x / uniforms.resolution.y;",
  "    let uv = vec2<f32>(",
  "        (f32(gid.x) + 0.5) / uniforms.resolution.x * 2.0 - 1.0,",
  "        1.0 - (f32(gid.y) + 0.5) / uniforms.resolution.y * 2.0",
  "    );",
  "",
  "    var total = vec3<f32>(0.0);",
  "    for (var iteration = 0; iteration < ITERATIONS; iteration++) \x7b",
  "        let lens = random2();",
  "        let jitter = random2();",
  "        let lens_offset = lens.x * view.aperture * vec2<f32>(cos(lens.y * 2.0 * PI), sin(lens.y * 2.0 * PI));",
  "        var origin = view.eye + lens_offset.x * right + lens_offset.y * up;",
  "        let angle = (uv * 0.5 + (jitter - 0.5) / uniforms.resolution) * view.field_of_view * vec2<f32>(aspect, 1.0);",
  "        let screen = vec3<f32>(cos(angle.y) * sin(angle.x), sin(angle.y), cos(angle.y) * cos(angle.x));",
  "        let focus = view.eye + view.focal_factor * length(view.look_at - view.eye) * (right * screen.x + up * screen.y + look * screen.z);",
  "        var direction = normalize(focus - origin);",
  "        var throughput = vec3<f32>(1.0);",
  "        var current = air;",
  "",
  "        for (var bounce = 0; bounce < BOUNCES; bounce++) \x7b",
  "            var scatter = UNBOUNDED;",
  "            // A zero mean free path never scatters.",
  "            if (current.scatter > 0.0 && current.scatter < MAX_VALUE) \x7b",
  "                scatter = -log(1.0 - random_float()) * current.scatter;",
  "            \x7d",
  "",
  "            var closest = Closest(0, MAX_VALUE);",
  "            var hit_point = origin;",
  "            var travelled = 0.0;",
  "            var hit = false;",
  "            for (var i = 0; i < STEPS; i++) \x7b",
  "                closest = calculateClosest(hit_point);",
  "                if (closest.dist < EPSILON) \x7b",
  "                    hit = true;",
  "                    break;",
  "                \x7d",
  "                travelled = travelled + closest.dist * STEP_FACTOR;",
  "                hit_point = origin + direction * travelled;",
  "                if (scatter > 0.0 && travelled >= scatter) \x7b",
  "                    break;",
  "                \x7d",
  "            \x7d",
  "",
  "            if (!hit && scatter > 0.0 && travelled >= scatter) \x7b",
  "                origin = origin + direction * scatter;",
  "                direction = sample_sphere(random2());",
  "                total = total + throughput * current.emissivity;",
  "                throughput = throughput * current.color;",
  "                continue;",
  "            \x7d",
  "            if (!hit) \x7b",
  "                total = total + throughput * air.color;",
  "                break;",
  "            \x7d",
  "",
  "            var normal = calculateNormal(closest.id, hit_point);",
  "            if (!(dot(normal, normal) > 0.5)) \x7b",
  "                break;",
  "            \x7d",
  "            let backface = dot(direction, normal) > 0.0;",
  "            if (backface) \x7b",
  "                normal = -normal;",
  "            \x7d",
  "            let material = calculateMaterial(closest.id, hit_point, normal, direction);",
  "            total = total + throughput * material.emissivity;",
  "            if (all(material.color == vec3<f32>(0.0))) \x7b",
  "                break;",
  "            \x7d",
  "",
  "            normal = sample_hemisphere(normal, material.smoothness, random2());",
  "            if (random_float() < material.transmittance) \x7b",
  "                var eta = current.refraction / material.refraction;",
  "                if (backface) \x7b",
  "                    eta = material.refraction / air.refraction;",
  "                \x7d",
  "                let refracted = refract(direction, normal, eta);",
  "                if (any(refracted != vec3<f32>(0.0))) \x7b",
  "                    origin = hit_point - 5.0 * EPSILON * normal;",
  "                    direction = normalize(refracted);",
  "                    if (backface) \x7b",
  "                        current = air;",
  "                    \x7d else \x7b",
  "                        current = material;",
  "                    \x7d",
  "                    continue;",
  "                \x7d",
  "            \x7d",
  "",
  "            throughput = throughput * material.color;",
  "            origin = hit_point + 5.0 * EPSILON * normal;",
  "            direction = reflect(direction, normal);",
  "        \x7d",
  "    \x7d",
  "",
  "    let radiance = select(vec3<f32>(0.0), total, all(total >= vec3<f32>(0.0)));",
  "    var history = previous[index];",
  "    if (uniforms.clicked != 0u) \x7b",
  "        history = history * 0.5;",
  "    \x7d",
  "    accumulated[index] = history * MEMORY + vec4<f32>(radiance, f32(ITERATIONS));",
  "\x7d"]

/-- The text, with an end after each line. -/
def entryPoint : String := String.join (entryPointLines.map (· ++ "\n"))

end SphereTracer.Shader
