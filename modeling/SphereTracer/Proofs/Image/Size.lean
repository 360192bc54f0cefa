import SphereTracer.Proofs.Image.Valid
import SphereTracer.Proofs.Numbers.Counts

/-!
# The size of a frame

The size of an image reaches a backend twice, as the shape of the previous image and as numbers in the
uniforms, and the backend compares the two.  They agree exactly if width and height survive as numbers.
-/

namespace SphereTracer

open Binary32 (Survives)

namespace Uniforms

variable (width height : UInt32)

theorem dimensions_ofSize : (ofSize width height).dimensions =
    (width.toFloat32.toUInt32, height.toFloat32.toUInt32) := by
  rw [dimensions, ofSize, toFloat_ofFloat, toFloat_ofFloat]
  rfl

/-- Width and height in the uniforms are those of the image, if both of them survive as numbers. -/
theorem dimensions_ofSize_iff : (ofSize width height).dimensions = (width, height) ↔
    Survives width ∧ Survives height := by
  rw [dimensions_ofSize, Prod.mk.injEq, Binary32.toUInt32_toFloat32_eq_iff,
    Binary32.toUInt32_toFloat32_eq_iff]

end Uniforms

namespace Progress

variable (s : Progress)

/-- No command changes the size. -/
theorem size_runAll (commands : List Command) :
    (Command.runAll act s commands).2.width = s.width ∧
      (Command.runAll act s commands).2.height = s.height := by
  have hact (s : Progress) (c : Command) :
      (s.act c).2.width = s.width ∧ (s.act c).2.height = s.height := by
    cases c with
    | reset => exact ⟨rfl, rfl⟩
    | render backend kernel input =>
      rw [act]
      split
      · exact ⟨rfl, rfl⟩
      · split <;> exact ⟨rfl, rfl⟩
  induction commands generalizing s with
  | nil => exact ⟨rfl, rfl⟩
  | cons c rest ih =>
    obtain ⟨hwidth, hheight⟩ := hact s c
    obtain ⟨hwidth', hheight'⟩ := ih (s.act c).2
    exact ⟨hwidth'.trans hwidth, hheight'.trans hheight⟩

/-- Images are made of whole pixels, even where their size wraps around. -/
theorem exists_bytes_eq : ∃ n, s.bytes = n * 16 := by
  have hbytes : s.bytes = (s.width.toUInt64 * s.height.toUInt64).toNat * 16 % 2 ^ 64 :=
    UInt64.toNat_mul _ _
  exact ⟨s.bytes / 16, by omega⟩

end Progress

namespace Accumulator

variable {acc : Accumulator} {s : Progress}

theorem Shows.validate (h : acc.Shows s) : acc.previous.validate = .ok () := by
  have hdata : s.view.data.size = s.bytes := (congrArg ByteArray.size h.image).symm.trans h.size
  have hexpected : s.view.expected = imageBytes s.width s.height := by
    show 1 * s.height.toUInt64 * s.width.toUInt64 * pixelBytes = _
    rw [UInt64.one_mul, UInt64.mul_comm s.height.toUInt64, imageBytes]
  rw [h.previous_eq, BufferView.validate, hdata, hexpected]
  exact if_pos rfl

/-- The image of an accumulator fits its own uniforms exactly if they have its size. -/
theorem Shows.checkFor (h : acc.Shows s) (hwidth : s.width ≠ 0) (hheight : s.height ≠ 0)
    (input : FrameInput) :
    acc.previous.checkFor (acc.uniforms input) =
      if Survives s.width ∧ Survives s.height then .ok () else .error .layout := by
  have hdimensions : (acc.uniforms input).dimensions =
      (s.width.toFloat32.toUInt32, s.height.toFloat32.toUInt32) := by
    rw [h.uniforms_eq]
    exact Uniforms.dimensions_ofSize s.width s.height
  have hpixels : ¬ (s.width.toFloat32.toUInt32 = 0 ∨ s.height.toFloat32.toUInt32 = 0) :=
    not_or.2 ⟨Binary32.toUInt32_toFloat32_ne_zero hwidth,
      Binary32.toUInt32_toFloat32_ne_zero hheight⟩
  have hlayout : (acc.previous.elementSize ≠ pixelBytes ∨ acc.previous.shape ≠
      [s.height.toFloat32.toUInt32.toUInt64, s.width.toFloat32.toUInt32.toUInt64]) ↔
      ¬ (Survives s.width ∧ Survives s.height) := by
    rw [h.previous_eq, ← Binary32.toUInt32_toFloat32_eq_iff, ← Binary32.toUInt32_toFloat32_eq_iff]
    simp [Progress.view, UInt32.toUInt64_inj, eq_comm, and_comm]
  unfold BufferView.checkFor
  rw [h.validate, hdimensions]
  show (if _ then _ else _) = _
  rw [if_neg hpixels, if_congr hlayout rfl rfl, ite_not]
  rfl

section
variable {kernel : Kernel} {threads : ℕ} {input : FrameInput}

theorem render_of_misfit {fault : ShapeFault}
    (h : acc.previous.checkFor (acc.uniforms input) = .error fault) :
    acc.render (cpuBackend threads) kernel input = .error (.shape fault) := by
  have hdispatch : (cpuBackend threads).dispatch kernel (acc.uniforms input) acc.previous
      (workgroups acc.width acc.height) = .error (.shape fault) := by
    change Cpu.dispatch (max threads 1) kernel _ _ = _
    rw [Cpu.dispatch, h]
    rfl
  rw [render, run_advance, hdispatch]

theorem Shows.exists_render (h : acc.Shows s) (hw : kernel.program.WellFormed)
    (hcheck : acc.previous.checkFor (acc.uniforms input) = .ok ()) :
    ∃ later, acc.render (cpuBackend threads) kernel input = .ok later := by
  obtain ⟨n, hn⟩ := s.exists_bytes_eq
  have hprevious : acc.previous.data.size = n * 16 := h.size.trans hn
  have hdispatch : (cpuBackend threads).dispatch kernel (acc.uniforms input) acc.previous
      (workgroups acc.width acc.height) = .ok _ := (Cpu.dispatch_eq_ok_iff hw).2 ⟨hcheck, rfl⟩
  rw [render, run_advance, hdispatch]
  dsimp only
  rw [if_pos]
  · exact ⟨_, rfl⟩
  · rw [Pixel.size_toBytes, List.length_mapIdx, Pixel.length_ofBytes hprevious]
    exact hprevious.symm

/-- An accumulator that holds an image fails to render it, on any number of threads, exactly if
width and height do not both survive as numbers. -/
theorem Shows.render_cases (h : acc.Shows s) (hwidth : s.width ≠ 0) (hheight : s.height ≠ 0)
    (hw : kernel.program.WellFormed) (threads : ℕ) (input : FrameInput) :
    (Survives s.width ∧ Survives s.height →
      ∃ later, acc.render (cpuBackend threads) kernel input = .ok later) ∧
    (¬ (Survives s.width ∧ Survives s.height) →
      acc.render (cpuBackend threads) kernel input = .error (.shape .layout)) := by
  have hcheck := h.checkFor hwidth hheight input
  constructor
  · intro hfit
    rw [if_pos hfit] at hcheck
    exact h.exists_render hw hcheck
  · intro hmisfit
    rw [if_neg hmisfit] at hcheck
    exact render_of_misfit hcheck

end

theorem new_eq_ok_iff {width height : UInt32} : (∃ acc, new width height = .ok acc) ↔
    width ≠ 0 ∧ height ≠ 0 := by
  unfold new
  by_cases hempty : width = 0 ∨ height = 0
  · rw [if_pos hempty]
    exact iff_of_false nofun (not_and_or.2 (hempty.imp not_not.2 not_not.2))
  · rw [if_neg hempty]
    exact iff_of_true ⟨_, rfl⟩ (not_or.1 hempty)

/-- Whatever has been asked of an accumulator, its uniforms have the size of its image exactly if width
and height survive as numbers, as all sizes up to 2 ^ 24 do.  If they do, the processor renders the
next frame; if not, it refuses the accumulator's own image. -/
theorem dimensions_survive {width height : UInt32} (hnew : new width height = .ok acc)
    (commands : List Command) {scene : Scene} {options : Options Word} {kernel : Kernel}
    (hkernel : Kernel.ofScene scene options = .ok kernel) (threads : ℕ) (input : FrameInput) :
    let later := (Command.runAll act acc commands).2
    ((later.uniforms input).dimensions = (width, height) ↔ Survives width ∧ Survives height) ∧
    (width.toNat ≤ 2 ^ 24 → height.toNat ≤ 2 ^ 24 → Survives width ∧ Survives height) ∧
    (Survives width ∧ Survives height →
      ∃ next, later.render (cpuBackend threads) kernel input = .ok next) ∧
    (¬ (Survives width ∧ Survives height) →
      later.render (cpuBackend threads) kernel input = .error (.shape .layout)) := by
  intro later
  obtain ⟨hwidth, hheight⟩ := new_eq_ok_iff.1 ⟨acc, hnew⟩
  obtain ⟨-, hshows⟩ := (shows_start hnew).runAll commands
  obtain ⟨hkept, hkept'⟩ := (Progress.start width height).size_runAll commands
  have hsize : later.width = width ∧ later.height = height :=
    ⟨hshows.width.trans hkept, hshows.height.trans hkept'⟩
  have hcases := hshows.render_cases (by rw [hkept]; exact hwidth) (by rw [hkept']; exact hheight)
    (wellFormed_of_kernel hkernel) threads input
  rw [hkept, hkept'] at hcases
  refine ⟨?_, fun hle hle' => ⟨Binary32.survives_of_le hle, Binary32.survives_of_le hle'⟩, hcases⟩
  rw [← Uniforms.dimensions_ofSize_iff, ← hsize.1, ← hsize.2]
  rfl

open Kernel in
/-- The usual size of a screen. -/
theorem dimensions_survive_screen :
    ∃ kernel, Kernel.ofScene (stage [ball]) .standard = .ok kernel ∧
      ∃ acc, new 1920 1080 = .ok acc ∧ Survives 1920 ∧ Survives 1080 ∧ ∀ input,
        (acc.uniforms input).dimensions = (1920, 1080) ∧
          ∃ next, acc.render (cpuBackend 4) kernel input = .ok next := by
  obtain ⟨-, program, hprogram⟩ := exists_program_ball
  have hkernel := Kernel.ofScene_eq_ok_iff.2 ⟨program, hprogram, rfl⟩
  obtain ⟨acc, hnew⟩ := new_eq_ok_iff.2 (show (1920 : UInt32) ≠ 0 ∧ (1080 : UInt32) ≠ 0 by decide)
  have hfit := (dimensions_survive hnew [] hkernel 4 ⟨⟨⟨0⟩, ⟨0⟩⟩, ⟨0⟩, false, 0⟩).2.1 (by decide)
    (by decide)
  refine ⟨_, hkernel, acc, hnew, hfit.1, hfit.2, fun input => ?_⟩
  obtain ⟨hdimensions, -, hrenders, -⟩ := dimensions_survive hnew [] hkernel 4 input
  exact ⟨hdimensions.2 hfit, hrenders hfit⟩

/-- One pixel more than 2 ^ 24 in a row: the uniforms have one less, and no frame is ever rendered. -/
theorem dimensions_not_survive_row :
    ∃ kernel, Kernel.ofScene .empty .standard = .ok kernel ∧
      ∃ acc, new 16777217 1 = .ok acc ∧ ∀ threads input,
        (acc.uniforms input).dimensions = (16777216, 1) ∧
          acc.render (cpuBackend threads) kernel input = .error (.shape .layout) := by
  obtain ⟨-, program, hprogram⟩ := Program.exists_ofScene_empty
    (show Options.standard.validate = .ok () by decide)
  have hkernel := Kernel.ofScene_eq_ok_iff.2 ⟨program, hprogram, rfl⟩
  obtain ⟨acc, hnew⟩ := new_eq_ok_iff.2 (show (16777217 : UInt32) ≠ 0 ∧ (1 : UInt32) ≠ 0 by decide)
  have hshows := shows_start hnew
  refine ⟨_, hkernel, acc, hnew, fun threads input => ⟨?_, ?_⟩⟩
  · rw [hshows.uniforms_eq]
    exact (Uniforms.dimensions_ofSize 16777217 1).trans (by decide +kernel)
  · exact (hshows.render_cases (by decide) (by decide) (wellFormed_of_kernel hkernel) threads input).2
      (by decide +kernel)

end Accumulator

end SphereTracer
