/-!
# The fixed prelude

What every kernel contains before its generated functions: types, bindings, random numbers,
directions and intrinsics.
-/

namespace SphereTracer.Shader

/-- The lines of the text, in order. -/
def preludeLines : List String := [
  "const PI: f32 = 3.14159265358979;",
  "const UNBOUNDED: f32 = 3.0e38;",
  "",
  "struct Uniforms \x7b",
  "    resolution: vec2<f32>,",
  "    mouse: vec2<f32>,",
  "    time: f32,",
  "    frame: u32,",
  "    clicked: u32,",
  "    seed: u32,",
  "\x7d",
  "",
  "struct Closest \x7b",
  "    id: i32,",
  "    dist: f32,",
  "\x7d",
  "",
  "struct Material \x7b",
  "    transmittance: f32,",
  "    smoothness: f32,",
  "    refraction: f32,",
  "    scatter: f32,",
  "    color: vec3<f32>,",
  "    emissivity: vec3<f32>,",
  "\x7d",
  "",
  "struct Frame \x7b",
  "    eye: vec3<f32>,",
  "    look_at: vec3<f32>,",
  "    up_hint: vec3<f32>,",
  "    field_of_view: f32,",
  "    aperture: f32,",
  "    focal_factor: f32,",
  "    air: Material,",
  "\x7d",
  "",
  "@group(0) @binding(0) var<uniform> uniforms: Uniforms;",
  "@group(0) @binding(1) var<storage, read> previous: array<vec4<f32>>;",
  "@group(0) @binding(2) var<storage, read_write> accumulated: array<vec4<f32>>;",
  "",
  "var<private> rng_state: u32;",
  "",
  "fn pcg_hash(v: u32) -> u32 \x7b",
  "    let state = v * 747796405u + 2891336453u;",
  "    let word = ((state >> ((state >> 28u) + 4u)) ^ state) * 277803737u;",
  "    return (word >> 22u) ^ word;",
  "\x7d",
  "",
  "fn random_float() -> f32 \x7b",
  "    rng_state = pcg_hash(rng_state);",
  "    return f32(rng_state >> 8u) / 16777216.0;",
  "\x7d",
  "",
  "fn random2() -> vec2<f32> \x7b",
  "    let a = random_float();",
  "    let b = random_float();",
  "    return vec2<f32>(a, b);",
  "\x7d",
  "",
  "fn ortho(v: vec3<f32>) -> vec3<f32> \x7b",
  "    if (abs(v.x) > abs(v.z)) \x7b",
  "        return vec3<f32>(-v.y, v.x, 0.0);",
  "    \x7d",
  "    return vec3<f32>(0.0, -v.z, v.y);",
  "\x7d",
  "",
  "// Cosine-power lobe around `normal`: smoothness 0 is Lambertian, 1 returns `normal`.",
  "fn sample_hemisphere(normal: vec3<f32>, smoothness: f32, noise: vec2<f32>) -> vec3<f32> \x7b",
  "    let s = clamp(smoothness, 0.0, 1.0);",
  "    let o1 = normalize(ortho(normal));",
  "    let o2 = normalize(cross(normal, o1));",
  "    let phi = noise.x * 2.0 * PI;",
  "    let cos_theta = sqrt(s + (1.0 - s) * noise.y);",
  "    let sin_theta = sqrt(max(0.0, 1.0 - cos_theta * cos_theta));",
  "    return sin_theta * (cos(phi) * o1 + sin(phi) * o2) + cos_theta * normal;",
  "\x7d",
  "",
  "fn sample_sphere(noise: vec2<f32>) -> vec3<f32> \x7b",
  "    let phi = noise.x * 2.0 * PI;",
  "    let z = noise.y * 2.0 - 1.0;",
  "    let q = sqrt(max(0.0, 1.0 - z * z));",
  "    return vec3<f32>(q * cos(phi), q * sin(phi), z);",
  "\x7d",
  "",
  "fn rotate_axis(p: vec3<f32>, axis: vec3<f32>, angle: f32) -> vec3<f32> \x7b",
  "    let k = normalize(axis);",
  "    let c = cos(angle);",
  "    let s = sin(angle);",
  "    return p * c + cross(k, p) * s + k * dot(k, p) * (1.0 - c);",
  "\x7d",
  "",
  "fn hash_noise(seed: vec3<f32>) -> f32 \x7b",
  "    let v = sin(dot(seed + 1000.0, vec3<f32>(12.9898, 78.233, 26.724))) * 43758.5453;",
  "    return min(fract(v), 0.99999988);",
  "\x7d"]

/-- The text, with an end after each line. -/
def prelude : String := String.join (preludeLines.map (· ++ "\n"))

end SphereTracer.Shader
