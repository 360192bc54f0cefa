import Mathlib
import SphereTracer.Image.Resolve
import SphereTracer.Proofs.Image.Valid
import SphereTracer.Proofs.Numbers.Lanes

/-!
# Averages

Every frame fades the sum of light in a pixel and the count of its samples alike.  So over the real
numbers the two are sums over all frames with the same weights, and their quotient is an average of the
frames.
-/

namespace SphereTracer

open Finset

/-! ## Faded sums -/

/-- The weight of what was added in step `i`, after `n` steps: all later steps have faded it. -/
def weight (keep : ℕ → ℝ) (n i : ℕ) : ℝ := ∏ j ∈ Ico (i + 1) n, keep j

section
variable {keep : ℕ → ℝ} {n i : ℕ}

theorem weight_succ (hi : i < n) : weight keep (n + 1) i = keep n * weight keep n i := by
  rw [weight, weight, prod_Ico_succ_top hi, mul_comm]

theorem weight_last (keep : ℕ → ℝ) (n : ℕ) : weight keep (n + 1) n = 1 := by
  rw [weight, Ico_self, prod_empty]

theorem weight_nonneg (hkeep : ∀ j, 0 ≤ keep j) (n i : ℕ) : 0 ≤ weight keep n i :=
  prod_nonneg fun j _ => hkeep j

theorem eq_sum_weight (sum : ℕ → ℝ) {added : ℕ → ℝ} (hzero : sum 0 = 0)
    (hstep : ∀ k, sum (k + 1) = keep k * sum k + added k) (n : ℕ) :
    sum n = ∑ i ∈ range n, weight keep n i * added i := by
  -- By induction on the steps; each fades all terms before its own.
  induction n with
  | zero => rw [hzero, range_zero, sum_empty]
  | succ n ih =>
    have hfaded : ∀ i ∈ range n,
        weight keep (n + 1) i * added i = keep n * (weight keep n i * added i) := by
      intro i hi
      rw [weight_succ (mem_range.1 hi), mul_assoc]
    rw [hstep, ih, sum_range_succ, sum_congr rfl hfaded, ← mul_sum, weight_last, one_mul]

theorem sum_weight_pos (hkeep : ∀ j, 0 ≤ keep j) (hn : 0 < n) :
    0 < ∑ i ∈ range n, weight keep n i := by
  obtain ⟨k, rfl⟩ := Nat.exists_eq_add_of_lt hn
  rw [Nat.zero_add, sum_range_succ, weight_last]
  exact add_pos_of_nonneg_of_pos (sum_nonneg fun i _ => weight_nonneg hkeep _ i) one_pos

end

/-! ## Exposures -/

/-- What a pixel holds after the first `n` of a sequence of frames, from nothing. -/
def exposures {S : Type} [Scalar S] (program : Program) (x y : UInt32) (frames : ℕ → Uniforms) :
    ℕ → Vec4 S
  | 0 => ⟨0.0, 0.0, 0.0, 0.0⟩
  | n + 1 =>
    (Tracer.new program (frames n)).accumulate x y (exposures program x y frames n)

namespace Shot

variable (shot : Shot ℝ) (history : Vec4 ℝ) (light : Vec3 ℝ)

theorem fade_real (memory : ℝ) (clicked : UInt32) : fade memory (clicked != 0) history =
    .scale (memory * if clicked = 0 then 1 else 1 / 2) history := by
  rw [fade]
  by_cases hclicked : clicked = 0
  · rw [if_pos hclicked, mul_one, hclicked]
    rfl
  · rw [if_neg hclicked, if_pos (bne_iff_ne.2 hclicked), real_half]
    simp only [Vec4.scale, Vec4.map, mul_assoc]

variable {shot} {keep : ℝ}
  (hkeep : keep = shot.options.memory * if shot.uniforms.clicked = 0 then 1 else 1 / 2)

include hkeep

theorem lane_expose (axis : Axis) : axis.lane (shot.expose history light).toVec3 =
    keep * axis.lane history.toVec3 + axis.lane light := by
  rw [expose, fade_real, ← hkeep]
  cases axis <;> rfl

theorem expose_w : (shot.expose history light).w =
    keep * history.w + shot.options.iterations.toNat := by
  rw [expose, fade_real, ← hkeep]
  rfl

end Shot

section
variable {program : Program} {frames : ℕ → Uniforms} {keep : ℕ → ℝ}
  (hkeep : ∀ j, keep j =
    Scalar.ofWord program.options.memory * if (frames j).clicked = 0 then 1 else 1 / 2)
  (x y : UInt32) (n : ℕ)

include hkeep

/-- Light and count have the same weights. -/
theorem lane_exposures (axis : Axis) :
    axis.lane (exposures program x y frames n).toVec3 = ∑ i ∈ range n,
      weight keep n i * axis.lane ((Tracer.new program (frames i)).radiance x y) := by
  apply eq_sum_weight fun n => axis.lane (exposures program x y frames n).toVec3
  · cases axis <;> exact real_zero
  · intro k
    exact Shot.lane_expose _ _ (hkeep k) axis

theorem exposures_w : (exposures program x y frames n).w =
    program.options.iterations.toNat * ∑ i ∈ range n, weight keep n i := by
  rw [mul_comm, sum_mul]
  apply eq_sum_weight fun n => (exposures program x y frames n).w
  · exact real_zero
  · intro k
    exact Shot.expose_w _ _ (hkeep k)

end

/-! ## Means -/

theorem lane_meanLight {p : Vec4 ℝ} (hp : 0 < p.w) (axis : Axis) :
    axis.lane (meanLight p) = axis.lane p.toVec3 / p.w := by
  have hcount : Scalar.lt 0.0 p.w = true := by
    rw [real_lt_iff, real_zero]
    exact hp
  rw [meanLight, if_pos hcount, Axis.lane_shrink]

theorem sum_div_mul_sum {n : ℕ} {w added : ℕ → ℝ} (count : ℝ) :
    (∑ i ∈ range n, w i * added i) / (count * ∑ i ∈ range n, w i) =
      (range n).centerMass w fun i => added i / count := by
  rw [centerMass, smul_eq_mul]
  simp only [smul_eq_mul, ← mul_div_assoc, ← sum_div]
  rw [inv_mul_eq_div, div_mul_eq_div_div, div_right_comm]

/-! ## Renders -/

namespace Accumulator

variable {acc later : Accumulator} {kernel : Kernel} {input : FrameInput} {threads : ℕ}

/-- An image that a frame has accepted has its size. -/
theorem dimensions_of_checkFor {u : Uniforms} (h : acc.previous.checkFor u = .ok ()) :
    u.dimensions = (acc.width, acc.height) := by
  obtain ⟨-, -, hlayout⟩ := BufferView.checkFor_eq_ok_iff.1 h
  rw [not_or, not_not, not_not] at hlayout
  have hshape : [acc.height.toUInt64, acc.width.toUInt64] =
      [u.dimensions.2.toUInt64, u.dimensions.1.toUInt64] := hlayout.2
  simp only [List.cons.injEq, UInt32.toUInt64_inj, and_true] at hshape
  exact Prod.ext hshape.2.symm hshape.1.symm

theorem render_eq_ok_iff {backend : Backend} : acc.render backend kernel input = .ok later ↔
    acc.act (.render backend kernel input) = (.ok (), later) := by
  rw [render]
  show _ ↔ (advance backend kernel input).run.run acc = _
  split
  · next hrun =>
    rw [hrun]
    exact ⟨fun h => congrArg _ (Except.ok.inj h), fun h => congrArg Except.ok (congrArg Prod.snd h)⟩
  · next hrun =>
    rw [hrun]
    exact ⟨nofun, fun h => nomatch congrArg Prod.fst h⟩

/-- A frame keeps the size of the image, and changes every pixel by itself. -/
theorem render_cpu (hw : kernel.program.WellFormed)
    (h : acc.render (cpuBackend threads) kernel input = .ok later) :
    later.width = acc.width ∧ later.pixels = acc.pixels.mapIdx
      (Cpu.nextAt kernel.program (acc.uniforms input) acc.width.toNat 0) := by
  have hact := render_eq_ok_iff.1 h
  obtain ⟨e, he⟩ | ⟨next, hnext, hwrote⟩ := acc.act_render_cases (cpuBackend threads) kernel input
  · cases he.symm.trans hact
  · cases hwrote.symm.trans hact
    obtain ⟨hcheck, -⟩ := (Cpu.dispatch_eq_ok_iff hw).1 hnext
    have hpixels := pixels_act_cpu hw hwrote
    rw [dimensions_of_checkFor hcheck] at hpixels
    exact ⟨acc.width_setBuffer _ _, hpixels⟩

/-- Frames that have succeeded one after the other leave exposures of them in the pixels. -/
theorem pixels_of_frames (hw : kernel.program.WellFormed) {width height : UInt32}
    {accs : ℕ → Accumulator} {inputs : ℕ → FrameInput} {threads : ℕ → ℕ}
    (hnew : new width height = .ok (accs 0)) (n : ℕ)
    (hframes : ∀ k < n,
      (accs k).render (cpuBackend (threads k)) kernel (inputs k) = .ok (accs (k + 1))) :
    (accs n).width = width ∧ (accs n).pixels = (accs 0).pixels.mapIdx fun i _ =>
      (exposures kernel.program (.ofNat (i % width.toNat)) (.ofNat (i / width.toNat))
        (fun k => (accs k).uniforms (inputs k)) n).map Word.ofFloat := by
  induction n with
  | zero =>
    refine ⟨(shows_start hnew).width, List.ext_getElem (by rw [List.length_mapIdx]) ?_⟩
    intro i hi _
    rw [List.getElem_mapIdx, pixels_new hnew _ (List.getElem_mem hi)]
    rfl
  | succ n ih =>
    obtain ⟨hwidth, hpixels⟩ := ih fun k hk => hframes k (Nat.lt_succ_of_lt hk)
    obtain ⟨hkept, hnext⟩ := render_cpu hw (hframes n n.lt_succ_self)
    refine ⟨hkept.trans hwidth, ?_⟩
    rw [hnext, hpixels, hwidth, List.mapIdx_mapIdx]
    congr 1
    funext i old
    simp only [Function.comp_apply, Cpu.nextAt, Cpu.next, Nat.zero_add, Vec4.map, toFloat_ofFloat,
      exposures]

variable {scene : Scene} {options : Options Word}

/-- Frames that succeed one after the other on the processor, on whatever number of threads, leave in
each pixel the exposures of that pixel to the frames.

Over the real numbers these are weighted sums over the frames: of the light that the frames add, and,
with the same weights, of the count of their paths.  What a frame has added is faded by all frames
after it, to the memory of the kernel and to one half more where the pointer is pressed, so that the
last frame counts in full.  Hence the count is positive as soon as there is a frame, and each channel
of the mean that is displayed lies between the least and the greatest average of a single frame. -/
theorem weighted_average (h : Kernel.ofScene scene options = .ok kernel) :
    (∀ (width height : UInt32) (accs : ℕ → Accumulator) (inputs : ℕ → FrameInput) (threads : ℕ → ℕ)
      (n : ℕ), new width height = .ok (accs 0) →
      (∀ k < n, (accs k).render (cpuBackend (threads k)) kernel (inputs k) = .ok (accs (k + 1))) →
      (accs n).pixels = (accs 0).pixels.mapIdx fun i _ =>
        (exposures kernel.program (.ofNat (i % width.toNat)) (.ofNat (i / width.toNat))
          (fun k => (accs k).uniforms (inputs k)) n).map Word.ofFloat) ∧
    let memory : ℝ := Scalar.ofWord options.memory
    let count : ℝ := options.iterations.toNat
    0 ≤ memory ∧ memory ≤ 1 ∧
    ∀ (x y : UInt32) (frames : ℕ → Uniforms) (n : ℕ),
      let light (i : ℕ) : Vec3 ℝ := (Tracer.new kernel.program (frames i)).radiance x y
      let keep (j : ℕ) : ℝ := memory * if (frames j).clicked = 0 then 1 else 1 / 2
      let weight (i : ℕ) : ℝ := ∏ j ∈ Ico (i + 1) n, keep j
      let pixel : Vec4 ℝ := exposures kernel.program x y frames n
      (∀ axis : Axis, axis.lane pixel.toVec3 = ∑ i ∈ range n, weight i * axis.lane (light i)) ∧
      pixel.w = count * ∑ i ∈ range n, weight i ∧
      ∀ hn : n ≠ 0, weight (n - 1) = 1 ∧ 0 < pixel.w ∧ ∀ axis : Axis,
        let average (i : ℕ) : ℝ := axis.lane (light i) / count
        (range n).inf' (nonempty_range_iff.2 hn) average ≤ axis.lane (meanLight pixel) ∧
          axis.lane (meanLight pixel) ≤ (range n).sup' (nonempty_range_iff.2 hn) average := by
  have hkernel := wellFormed_of_kernel h
  obtain ⟨program, hprogram, rfl⟩ := Kernel.ofScene_eq_ok_iff.1 h
  obtain ⟨hw, -, rfl⟩ := Program.spec_of_ofScene hprogram
  obtain ⟨hpos, hle⟩ := Binary32.toReal_of_within (Pixel.within_memory hw)
  rw [zpow_zero] at hle
  refine ⟨fun width height accs inputs threads n hnew hframes =>
    (pixels_of_frames hkernel hnew n hframes).2, hpos, hle, fun x y frames n => ?_⟩
  intro light keep weight pixel
  have hlight (axis : Axis) :
      axis.lane pixel.toVec3 = ∑ i ∈ range n, weight i * axis.lane (light i) :=
    lane_exposures (fun _ => rfl) x y n axis
  have hcount : pixel.w = program.options.iterations.toNat * ∑ i ∈ range n, weight i :=
    exposures_w (fun _ => rfl) x y n
  refine ⟨hlight, hcount, fun hn => ?_⟩
  have hkeep (j : ℕ) : 0 ≤ keep j := by
    apply mul_nonneg hpos
    split <;> positivity
  have hweights : 0 < ∑ i ∈ range n, weight i := sum_weight_pos hkeep (Nat.pos_of_ne_zero hn)
  have hiterations : 0 < (program.options.iterations.toNat : ℝ) := by
    obtain ⟨k, hk⟩ :=
      exists_toNat_eq_succ (Options.validate_eq_ok_iff.1 hw.options).iterations.1
    rw [hk]
    positivity
  have hpixel : 0 < pixel.w := by
    rw [hcount]
    exact mul_pos hiterations hweights
  refine ⟨?_, hpixel, fun axis => ?_⟩
  · obtain ⟨k, rfl⟩ := Nat.exists_eq_succ_of_ne_zero hn
    exact weight_last _ k
  · intro average
    have hmean : axis.lane (meanLight pixel) = (range n).centerMass weight average := by
      rw [lane_meanLight hpixel, hlight, hcount]
      exact sum_div_mul_sum _
    have hnonneg : ∀ i ∈ range n, 0 ≤ weight i := fun i _ => weight_nonneg hkeep n i
    -- A center of mass lies between the extremes of its points.
    rw [hmean]
    exact ⟨inf_le_centerMass hnonneg hweights, centerMass_le_sup hnonneg hweights⟩

/-- The accumulator after the first `n` of a sequence of frames, whether they succeed or not. -/
def afterFrames (backend : Backend) (kernel : Kernel) (inputs : ℕ → FrameInput)
    (acc : Accumulator) : ℕ → Accumulator
  | 0 => acc
  | n + 1 => ((afterFrames backend kernel inputs acc n).act (.render backend kernel (inputs n))).2

/-- On a single pixel all of them succeed. -/
theorem Single.render_afterFrames {p : Pixel} (h : acc.Single p) (hw : kernel.program.WellFormed)
    (inputs : ℕ → FrameInput) (n : ℕ) :
    let frames := afterFrames (cpuBackend threads) kernel inputs acc
    (frames n).render (cpuBackend threads) kernel (inputs n) = .ok (frames (n + 1)) := by
  intro frames
  have hsingle (n : ℕ) : ∃ q, (frames n).Single q := by
    induction n with
    | zero => exact ⟨p, h⟩
    | succ n ih =>
      obtain ⟨q, hq⟩ := ih
      obtain ⟨later, hact, hlater⟩ := hq.act hw threads (inputs n)
      have hafter : frames (n + 1) = later := congrArg Prod.snd hact
      exact ⟨_, hafter ▸ hlater⟩
  obtain ⟨q, hq⟩ := hsingle n
  obtain ⟨later, hact, -⟩ := hq.act hw threads (inputs n)
  exact render_eq_ok_iff.2 (hact.trans (congrArg _ (congrArg Prod.snd hact).symm))

/-- Two paths a frame and half of the history: after two frames and one with the pointer pressed, a
pixel counts two and three quarters. -/
theorem weighted_average_single :
    ∃ kernel, Kernel.ofScene .empty { Options.standard with memory := 0.5, iterations := 2 } =
        .ok kernel ∧ ∃ acc, new 1 1 = .ok acc ∧ ∀ inputs : ℕ → FrameInput,
      let accs := afterFrames (cpuBackend 1) kernel inputs acc
      let frames (k : ℕ) : Uniforms := (accs k).uniforms (inputs k)
      (accs 3).pixels = [(exposures kernel.program 0 0 frames 3).map Word.ofFloat] ∧
        ((inputs 1).clicked = false → (inputs 2).clicked = true →
          (exposures kernel.program 0 0 frames 3 : Vec4 ℝ).w = 11 / 4) := by
  obtain ⟨-, program, hprogram⟩ := Program.exists_ofScene_empty
    (show ({ Options.standard with memory := 0.5, iterations := 2 } : Options Word).validate =
      .ok () by decide)
  have hkernel := Kernel.ofScene_eq_ok_iff.2 ⟨program, hprogram, rfl⟩
  refine ⟨_, hkernel, _, rfl, fun inputs => ?_⟩
  intro accs frames
  have hsingle : Single ⟨1, 1, 0, blank 16, blank 16⟩ ⟨⟨0⟩, ⟨0⟩, ⟨0⟩, ⟨0⟩⟩ := ⟨rfl, rfl, rfl, rfl⟩
  obtain ⟨hpixels, -, -, hsums⟩ := weighted_average hkernel
  constructor
  · exact hpixels 1 1 accs inputs (fun _ => 1) 3 rfl fun k _ =>
      hsingle.render_afterFrames (wellFormed_of_kernel hkernel) inputs k
  · intro hidle hpressed
    obtain ⟨-, hcount, -⟩ := hsums 0 0 frames 3
    have hfirst : (frames 1).clicked = 0 := by
      show (if (inputs 1).clicked then 1 else 0 : UInt32) = 0
      rw [hidle]
      rfl
    have hlast : (frames 2).clicked = 1 := by
      show (if (inputs 2).clicked then 1 else 0 : UInt32) = 1
      rw [hpressed]
      rfl
    have hmemory : (Scalar.ofWord (0.5 : Word) : ℝ) = 1 / 2 := real_ofWord_half.trans real_half
    have htwo : (2 : UInt32).toNat = 2 := rfl
    have hboth : Ico (0 + 1) 3 = {1, 2} := by decide
    have hlater : Ico (1 + 1) 3 = {2} := by decide
    rw [hcount]
    simp only [sum_range_succ, range_zero, sum_empty, hboth, hlater, Ico_self, prod_empty,
      prod_pair (show 1 ≠ 2 by decide), prod_singleton, htwo, hmemory, hfirst, hlast,
      if_true, if_neg (show (1 : UInt32) ≠ 0 by decide)]
    norm_num

end Accumulator

end SphereTracer
