import Mathlib
import SphereTracer.Proofs.Image.Bands
import SphereTracer.Proofs.Image.Progress
import SphereTracer.Proofs.Numbers.Nonnegative
import SphereTracer.Proofs.Trace.Hits

/-!
# Pixels that stay valid

A pixel is a faded sum of light, and light is never negative.  So no channel ever is.  Light may be
infinite, and stays so in the sum as long as something of the sum is remembered; a frame that forgets
all of it multiplies by zero, and makes an infinite channel one that is not a number.
-/

namespace SphereTracer

open Binary32 (Within Finite Infinite)

/-! ## One channel -/

/-- A channel after a frame that adds light to it. -/
def exposed (memory : Float32) (clicked : Bool) (light x : Float32) : Float32 :=
  memory * (if clicked then 0.5 * x else x) + light

section
variable {memory light x : Float32} {clicked : Bool}

theorem within_half : Within (-1) 0.5 :=
  Binary32.within_of_le (show (0.0 : Float32) < 0.5 by decide)
    (show (0.5 : Float32) ≤ 0.5 by decide) (by decide)

theorem exposed_isNaN (hx : x.isNaN) : (exposed memory clicked light x).isNaN := by
  unfold exposed
  apply Binary32.isNaN_add_left
  apply Binary32.isNaN_mul_right
  cases clicked
  · exact hx
  · exact Binary32.isNaN_mul_right 0.5 hx

/-- Half of a number is no greater. -/
theorem within_history {n : ℤ} (hx : Within n x) (hlow : -124 ≤ n) (hhigh : n ≤ 128) :
    Within n (if clicked then 0.5 * x else x) := by
  cases clicked
  · exact hx
  · have hhalf : Within (-1 + n) (0.5 * x) := within_half.mul hx (by omega) (by omega)
    exact hhalf.mono (by omega)

/-- What is kept of a finite channel is not negative. -/
theorem zero_le_faded (hmemory : Within 0 memory) (hx : Finite x) :
    0.0 ≤ memory * (if clicked then 0.5 * x else x) := by
  have hfinite : Finite memory := hmemory.mono (by decide)
  have hhistory : Finite (if clicked then 0.5 * x else x) :=
    within_history hx (by decide) (by decide)
  exact Binary32.zero_le_mul hfinite hhistory

theorem exposed_finite (hmemory : Within 0 memory) (hlight : 0.0 ≤ light) (hx : Finite x) :
    0.0 ≤ exposed memory clicked light x := by
  unfold exposed
  exact Binary32.zero_le_add (zero_le_faded hmemory hx) hlight

theorem exposed_glare (hmemory : Within 0 memory) (hlight : Infinite light) (hx : Finite x) :
    Infinite (exposed memory clicked light x) := by
  unfold exposed
  exact hlight.add_left (zero_le_faded hmemory hx)

theorem infinite_history (hx : Infinite x) : Infinite (if clicked then 0.5 * x else x) := by
  cases clicked
  · exact hx
  · exact hx.mul (within_half.mono (by decide)) (by decide)

theorem exposed_infinite (hmemory : Within 0 memory) (hne : ¬ (memory == 0.0) = true)
    (hlight : 0.0 ≤ light) (hx : Infinite x) : Infinite (exposed memory clicked light x) := by
  have hfinite : Finite memory := hmemory.mono (by decide)
  unfold exposed
  exact ((infinite_history hx).mul hfinite hne).add hlight

theorem exposed_forgotten (hzero : (memory == 0.0) = true) (hx : Infinite x) :
    (exposed memory clicked light x).isNaN := by
  unfold exposed
  exact Binary32.isNaN_add_left ((infinite_history hx).isNaN_mul hzero) light

/-- A channel that is no number, or not negative. -/
def Unsigned (x : Float32) : Prop := x.isNaN ∨ 0.0 ≤ x

theorem Unsigned.not_lt (hx : Unsigned x) : ¬ x < 0.0 := by
  rcases hx with hnan | hle
  · exact fun hlt => (Binary32.not_isNaN_of_lt hlt).1 hnan
  · exact Binary32.not_lt_of_le hle

theorem exposed_zero_le (hmemory : Within 0 memory) (hne : ¬ (memory == 0.0) = true)
    (hlight : 0.0 ≤ light) (hx : 0.0 ≤ x) : 0.0 ≤ exposed memory clicked light x := by
  rcases Binary32.zero_le_iff.1 hx with hfinite | hinfinite
  · exact exposed_finite hmemory hlight hfinite
  · exact Binary32.zero_le_iff.2 (.inr (exposed_infinite hmemory hne hlight hinfinite))

theorem exposed_unsigned (hmemory : Within 0 memory) (hlight : 0.0 ≤ light) (hx : Unsigned x) :
    Unsigned (exposed memory clicked light x) := by
  rcases hx with hnan | hle
  · exact .inl (exposed_isNaN hnan)
  -- Only a memory of zero can lose an infinite channel.
  · by_cases hzero : (memory == 0.0) = true
    · rcases Binary32.zero_le_iff.1 hle with hfinite | hinfinite
      · exact .inr (exposed_finite hmemory hlight hfinite)
      · exact .inl (exposed_forgotten hzero hinfinite)
    · exact .inr (exposed_zero_le hmemory hzero hlight hle)

/-- What makes a channel no number: it was none before, or it was infinite and is forgotten. -/
theorem exposed_isNaN_iff (hmemory : Within 0 memory) (hlight : 0.0 ≤ light) (hx : Unsigned x) :
    (exposed memory clicked light x).isNaN ↔ x.isNaN ∨ (memory == 0.0) = true ∧ x.isInf := by
  rcases hx with hnan | hle
  · exact iff_of_true (exposed_isNaN hnan) (.inl hnan)
  · have hnumber : ¬ x.isNaN := Binary32.not_isNaN_of_zero_le hle
    rw [Binary32.isInf_iff hle]
    rcases Binary32.zero_le_iff.1 hle with hfinite | hinfinite
    · apply iff_of_false
      · exact Binary32.not_isNaN_of_zero_le (exposed_finite hmemory hlight hfinite)
      · rintro (hnan | ⟨-, hinfinite⟩)
        · exact hnumber hnan
        · exact hfinite.not_infinite hinfinite
    · by_cases hzero : (memory == 0.0) = true
      · exact iff_of_true (exposed_forgotten hzero hinfinite) (.inr ⟨hzero, hinfinite⟩)
      · apply iff_of_false
        · apply Binary32.not_isNaN_of_zero_le
          exact Binary32.zero_le_iff.2 (.inr (exposed_infinite hmemory hzero hlight hinfinite))
        · rintro (hnan | ⟨hforgets, -⟩)
          · exact hnumber hnan
          · exact hzero hforgets

/-- A count of samples stays below `2 ^ 56`, which absorbs what a frame adds. -/
theorem exposed_within (hmemory : Within 0 memory) (hlight : Within 31 light) (hx : Within 56 x) :
    Within 56 (exposed memory clicked light x) := by
  have hhistory : Within 56 (if clicked then 0.5 * x else x) :=
    within_history hx (by decide) (by decide)
  have hfaded : Within (0 + 56) (memory * if clicked then 0.5 * x else x) :=
    hmemory.mul hhistory (by decide) (by decide)
  unfold exposed
  exact hfaded.add hlight (by decide) (by decide)

end

/-! ## One frame -/

/-- The numbers of a pixel: the light, and the count of its samples. -/
def Pixel.channels (p : Pixel) : List Float32 :=
  [p.x.toFloat, p.y.toFloat, p.z.toFloat, p.w.toFloat]

/-- What a frame adds to the channels of a pixel. -/
def Tracer.exposure (tracer : Tracer Float32) (x y : UInt32) : List Float32 :=
  let light := tracer.radiance x y
  [light.x, light.y, light.z, Scalar.ofCount tracer.options.iterations]

namespace Shot

/-- The light of a pixel is never negative, and never NaN. -/
theorem zero_le_lightOfSum (total : Vec3 Float32) :
    0.0 ≤ (lightOfSum total).x ∧ 0.0 ≤ (lightOfSum total).y ∧ 0.0 ≤ (lightOfSum total).z := by
  unfold lightOfSum
  by_cases hsum : total.nonneg
  · rw [if_pos hsum]
    simp only [Vec3.nonneg, Bool.and_eq_true] at hsum
    exact ⟨decide_eq_true_iff.1 hsum.1.1, decide_eq_true_iff.1 hsum.1.2,
      decide_eq_true_iff.1 hsum.2⟩
  · rw [if_neg hsum]
    exact ⟨by decide, by decide, by decide⟩

end Shot

namespace Cpu

variable {program : Program} {u : Uniforms}

/-- A frame fades the channels of a pixel and adds to them, each by itself. -/
theorem channels_next (program : Program) (u : Uniforms) (x y : Nat) (old : Pixel) :
    (next program u x y old).channels = List.zipWith
      (exposed program.options.memory.toFloat (u.clicked != 0))
      ((Tracer.new program u : Tracer Float32).exposure (UInt32.ofNat x) (UInt32.ofNat y))
      old.channels := by
  have hchannels (p : Vec4 Float32) :
      Pixel.channels (p.map Word.ofFloat) = [p.x, p.y, p.z, p.w] := by
    simp only [Pixel.channels, Vec4.map, toFloat_ofFloat]
  have hclicked : (Tracer.new program u : Tracer Float32).uniforms.clicked = u.clicked := rfl
  unfold next Tracer.accumulate Shot.expose Shot.fade
  rw [hchannels, hclicked]
  cases u.clicked != 0 <;> rfl

/-- The red light of a pixel, and the count of its samples. -/
theorem lanes_next (program : Program) (u : Uniforms) (x y : Nat) (old : Pixel) :
    let memory := program.options.memory.toFloat
    let tracer : Tracer Float32 := .new program u
    (next program u x y old).x.toFloat = exposed memory (u.clicked != 0)
        (tracer.radiance (UInt32.ofNat x) (UInt32.ofNat y)).x old.x.toFloat ∧
      (next program u x y old).w.toFloat = exposed memory (u.clicked != 0)
        (Scalar.ofCount program.options.iterations) old.w.toFloat := by
  have hchannels := channels_next program u x y old
  simp only [Tracer.exposure, Pixel.channels, List.zipWith_cons_cons, List.cons.injEq] at hchannels
  exact ⟨hchannels.1, hchannels.2.2.2.1⟩

/-- What a frame adds is not negative and not NaN, and its samples are few enough to be counted. -/
theorem zero_le_exposure (hw : program.WellFormed) (x y : UInt32) :
    (∀ light ∈ (Tracer.new program u : Tracer Float32).exposure x y, 0.0 ≤ light) ∧
      Within 31 (Scalar.ofCount program.options.iterations) := by
  have hiterations := (Options.validate_eq_ok_iff.1 hw.options).iterations.2
  have hcount : Within 31 (Scalar.ofCount program.options.iterations) := by
    apply Binary32.within_ofCount
    have hle : program.options.iterations.toNat ≤ 2147483647 := UInt32.le_iff_toNat_le.1 hiterations
    omega
  obtain ⟨hx, hy, hz⟩ := Shot.zero_le_lightOfSum
    ((Tracer.new program u : Tracer Float32).sumPaths x y program.options.iterations.toNat .zero
      (.forPixel u x y))
  refine ⟨?_, hcount⟩
  unfold Tracer.exposure
  simp only [List.forall_mem_cons, List.not_mem_nil, false_implies, implies_true, and_true]
  exact ⟨hx, hy, hz, Binary32.zero_le_iff.2 (.inl (hcount.mono (by decide)))⟩

end Cpu

/-! ## Pixels -/

/-- A pixel none of whose channels is negative, and whose count of samples is a number. -/
structure Pixel.Sound (p : Pixel) : Prop where
  channels : ∀ x ∈ p.channels, Unsigned x
  count : Within 56 p.w.toFloat

/-- A sound pixel all of whose channels are numbers. -/
structure Pixel.Valid (p : Pixel) : Prop extends p.Sound where
  zero_le : ∀ x ∈ p.channels, 0.0 ≤ x

theorem forall_mem_zipWith {α β γ : Type} {f : α → β → γ} {P : α → Prop} {Q : β → Prop}
    {R : γ → Prop} (hf : ∀ a b, P a → Q b → R (f a b)) {l : List α} {l' : List β}
    (hl : ∀ a ∈ l, P a) (hl' : ∀ b ∈ l', Q b) : ∀ c ∈ List.zipWith f l l', R c := by
  intro c hc
  rw [← List.map_uncurry_zip_eq_zipWith, List.mem_map] at hc
  obtain ⟨⟨a, b⟩, hmem, rfl⟩ := hc
  obtain ⟨ha, hb⟩ := List.of_mem_zip hmem
  exact hf a b (hl a ha) (hl' b hb)

theorem forall₂_mapIdx {α β : Type} {R : α → β → Prop} {f : Nat → α → β} {l : List α}
    (h : ∀ i, ∀ a ∈ l, R a (f i a)) : List.Forall₂ R l (l.mapIdx f) := by
  induction l generalizing f with
  | nil => exact .nil
  | cons a l ih =>
    rw [List.mapIdx_cons]
    exact .cons (h 0 a List.mem_cons_self) (ih fun i b hb => h (i + 1) b (List.mem_cons_of_mem a hb))

namespace Pixel

theorem valid_zero : Valid ⟨⟨0⟩, ⟨0⟩, ⟨0⟩, ⟨0⟩⟩ := by
  have hzero : ∀ x ∈ Pixel.channels ⟨⟨0⟩, ⟨0⟩, ⟨0⟩, ⟨0⟩⟩, 0.0 ≤ x := by
    decide
  exact ⟨⟨fun x hx => .inr (hzero x hx), Binary32.within_zero 56⟩, hzero⟩

section
variable {program : Program} {u : Uniforms} {old : Pixel} (hw : program.WellFormed) (x y : Nat)

include hw

theorem within_memory : Within 0 program.options.memory.toFloat := by
  obtain ⟨hpos, hle⟩ := (Options.validate_eq_ok_iff.1 hw.options).memory
  exact Binary32.within_zero_of_le_one hpos hle

/-- Every frame keeps a pixel sound. -/
theorem Sound.next (h : old.Sound) : (Cpu.next program u x y old).Sound := by
  obtain ⟨hexposure, hcount⟩ := Cpu.zero_le_exposure hw (UInt32.ofNat x) (UInt32.ofNat y)
    (u := u)
  constructor
  · have hkeeps : ∀ light c : Float32, 0.0 ≤ light → Unsigned c →
        Unsigned (exposed program.options.memory.toFloat (u.clicked != 0) light c) :=
      fun light c hlight hc => exposed_unsigned (within_memory hw) hlight hc
    rw [Cpu.channels_next]
    exact forall_mem_zipWith hkeeps hexposure h.channels
  · rw [(Cpu.lanes_next program u x y old).2]
    exact exposed_within (within_memory hw) hcount h.count

/-- A frame that remembers something keeps a pixel valid. -/
theorem Valid.next (hne : ¬ (program.options.memory.toFloat == 0.0) = true) (h : old.Valid) :
    (Cpu.next program u x y old).Valid := by
  obtain ⟨hexposure, -⟩ := Cpu.zero_le_exposure hw (UInt32.ofNat x) (UInt32.ofNat y) (u := u)
  have hkeeps : ∀ light c : Float32, 0.0 ≤ light → 0.0 ≤ c →
      0.0 ≤ exposed program.options.memory.toFloat (u.clicked != 0) light c :=
    fun light c hlight hc => exposed_zero_le (within_memory hw) hne hlight hc
  refine ⟨h.toSound.next hw x y, ?_⟩
  rw [Cpu.channels_next]
  exact forall_mem_zipWith hkeeps hexposure h.zero_le

/-- Which channels of a sound pixel a frame makes into no numbers. -/
theorem Sound.isNaN_next_iff (h : old.Sound) :
    List.Forall₂ (fun c c' : Float32 => c'.isNaN ↔
        c.isNaN ∨ (program.options.memory.toFloat == 0.0) = true ∧ c.isInf)
      old.channels (Cpu.next program u x y old).channels := by
  obtain ⟨hexposure, -⟩ := Cpu.zero_le_exposure hw (UInt32.ofNat x) (UInt32.ofNat y) (u := u)
  have hchannel : ∀ light c : Float32, 0.0 ≤ light → Unsigned c →
      ((exposed program.options.memory.toFloat (u.clicked != 0) light c).isNaN ↔
        c.isNaN ∨ (program.options.memory.toFloat == 0.0) = true ∧ c.isInf) :=
    fun light c hlight hc => exposed_isNaN_iff (within_memory hw) hlight hc
  have hsound := h.channels
  rw [Cpu.channels_next]
  simp only [Tracer.exposure, Pixel.channels, List.forall_mem_cons] at hexposure hsound ⊢
  obtain ⟨hx, hy, hz, hn, -⟩ := hexposure
  obtain ⟨hsx, hsy, hsz, hsw, -⟩ := hsound
  exact .cons (hchannel _ _ hx hsx) (.cons (hchannel _ _ hy hsy)
    (.cons (hchannel _ _ hz hsz) (.cons (hchannel _ _ hn hsw) .nil)))

end

end Pixel

/-! ## All frames -/

/-- The command clears the image, or renders a frame of an accepted scene on the processor. -/
def Command.OnCpu : Command → Prop
  | .render backend kernel _ => (∃ threads, backend = cpuBackend threads) ∧
      ∃ scene options, Kernel.ofScene scene options = .ok kernel
  | .reset => True

/-- The command does not forget all of the image that it continues. -/
def Command.Remembers : Command → Prop
  | .render _ kernel _ => ¬ (kernel.program.options.memory.toFloat == 0.0) = true
  | .reset => True

namespace Accumulator

variable {acc : Accumulator}

/-- A frame on the processor, unless it fails, changes every pixel by itself. -/
theorem pixels_act_cpu {threads : Nat} {kernel : Kernel} (hw : kernel.program.WellFormed)
    {input : FrameInput} {later : Accumulator}
    (h : acc.act (.render (cpuBackend threads) kernel input) = (.ok (), later)) :
    later.pixels = acc.pixels.mapIdx (Cpu.nextAt kernel.program (acc.uniforms input)
      (acc.uniforms input).dimensions.1.toNat 0) := by
  obtain ⟨e, he⟩ | ⟨next, hnext, hact⟩ := acc.act_render_cases (cpuBackend threads) kernel input
  · cases he.symm.trans h
  · cases hact.symm.trans h
    obtain ⟨-, himage⟩ := (Cpu.dispatch_eq_ok_iff hw).1 hnext
    rw [pixels, readIndex_wrote, buffer_wrote, himage, Pixel.ofBytes_toBytes]
    rfl

/-- The command keeps what holds of pixels: a reset leaves blank ones, and a frame changes them one
by one. -/
def Keeps (P : Pixel → Prop) : Command → Prop
  | .render _ kernel _ => ∀ u x y old, P old → P (Cpu.next kernel.program u x y old)
  | .reset => P ⟨⟨0⟩, ⟨0⟩, ⟨0⟩, ⟨0⟩⟩

theorem wellFormed_of_kernel {scene : Scene} {options : Options Word} {kernel : Kernel}
    (h : Kernel.ofScene scene options = .ok kernel) : kernel.program.WellFormed := by
  obtain ⟨program, hprogram, rfl⟩ := Kernel.ofScene_eq_ok_iff.1 h
  exact (Program.spec_of_ofScene hprogram).1

section
variable {P : Pixel → Prop}

theorem pixels_act {c : Command} (hcpu : c.OnCpu) (hkeeps : Keeps P c)
    (hacc : ∀ p ∈ acc.pixels, P p) : ∀ p ∈ (acc.act c).2.pixels, P p := by
  cases c with
  | reset =>
    intro p hp
    rw [eq_zero_of_mem_blank _ p hp]
    exact hkeeps
  | render backend kernel input =>
    obtain ⟨⟨threads, rfl⟩, scene, options, hkernel⟩ := hcpu
    obtain ⟨e, he⟩ | ⟨next, -, hact⟩ := acc.act_render_cases (cpuBackend threads) kernel input
    · rw [he]
      exact hacc
    · rw [hact]
      intro p hp
      rw [pixels_act_cpu (wellFormed_of_kernel hkernel) hact] at hp
      obtain ⟨i, hi, rfl⟩ := List.mem_mapIdx.1 hp
      exact hkeeps _ _ _ _ (hacc _ (List.getElem_mem hi))

theorem pixels_runAll {commands : List Command} (hcpu : ∀ c ∈ commands, c.OnCpu)
    (hkeeps : ∀ c ∈ commands, Keeps P c) (hacc : ∀ p ∈ acc.pixels, P p) :
    ∀ p ∈ (Command.runAll act acc commands).2.pixels, P p := by
  induction commands generalizing acc with
  | nil => exact hacc
  | cons c rest ih =>
    rw [List.forall_mem_cons] at hcpu hkeeps
    show ∀ p ∈ (Command.runAll act (acc.act c).2 rest).2.pixels, P p
    exact ih hcpu.2 hkeeps.2 (pixels_act hcpu.1 hkeeps.1 hacc)

end

theorem pixels_new {width height : UInt32} (h : new width height = .ok acc) :
    ∀ p ∈ acc.pixels, p = ⟨⟨0⟩, ⟨0⟩, ⟨0⟩, ⟨0⟩⟩ := by
  unfold new at h
  split at h
  · cases h
  · cases h
    exact eq_zero_of_mem_blank _

/-- Soundness is kept by all frames, and validity by those that remember something. -/
theorem keeps_sound {c : Command} (hcpu : c.OnCpu) : Keeps Pixel.Sound c := by
  cases c with
  | reset => exact Pixel.valid_zero.toSound
  | render backend kernel input =>
    obtain ⟨-, scene, options, hkernel⟩ := hcpu
    intro u x y old h
    exact h.next (wellFormed_of_kernel hkernel) x y

theorem keeps_valid {c : Command} (hcpu : c.OnCpu) (hremembers : c.Remembers) :
    Keeps Pixel.Valid c := by
  cases c with
  | reset => exact Pixel.valid_zero
  | render backend kernel input =>
    obtain ⟨-, scene, options, hkernel⟩ := hcpu
    intro u x y old h
    exact h.next (wellFormed_of_kernel hkernel) x y hremembers

theorem lt_count_of_within {x : Float32} (h : Within 56 x) : x < 1.5e17 :=
  h.lt (by decide) (show (56 : ℤ) - 23 < 34 by decide)
    (show Binary32.rank? 1.5e17 = some (toLex (1, toLex (34, 8731149))) by decide)

/-- Whatever frames are rendered on the processor, of whatever accepted scenes, with resets between
them: no channel of a pixel is ever negative, and the count of samples is always a number.  As long
as every frame remembers something of the image, all channels are numbers; they may be infinite.
And of one more frame: it makes a channel NaN exactly if the channel was that before, or if it was
infinite and the frame remembers nothing. -/
theorem pixels_valid {width height : UInt32} (h : new width height = .ok acc)
    {commands : List Command} (hcpu : ∀ c ∈ commands, c.OnCpu) :
    let after := (Command.runAll act acc commands).2
    (∀ p ∈ after.pixels, (∀ x ∈ p.channels, ¬ x < 0.0) ∧
      0.0 ≤ p.w.toFloat ∧ p.w.toFloat < 1.5e17) ∧
    ((∀ c ∈ commands, c.Remembers) → ∀ p ∈ after.pixels, ∀ x ∈ p.channels, 0.0 ≤ x) ∧
    ∀ threads kernel input later, (∃ scene options, Kernel.ofScene scene options = .ok kernel) →
      after.act (.render (cpuBackend threads) kernel input) = (.ok (), later) →
      List.Forall₂ (fun p p' : Pixel => List.Forall₂ (fun x x' : Float32 => x'.isNaN ↔
          x.isNaN ∨ (kernel.program.options.memory.toFloat == 0.0) = true ∧ x.isInf)
        p.channels p'.channels) after.pixels later.pixels := by
  have hzero := pixels_new h
  have hsound : ∀ p ∈ (Command.runAll act acc commands).2.pixels, p.Sound := by
    apply pixels_runAll hcpu fun c hc => keeps_sound (hcpu c hc)
    intro p hp
    rw [hzero p hp]
    exact Pixel.valid_zero.toSound
  intro after
  refine ⟨?_, ?_, ?_⟩
  · intro p hp
    obtain ⟨hchannels, hcount⟩ := hsound p hp
    have hfinite : Finite p.w.toFloat := hcount.mono (by decide)
    exact ⟨fun x hx => (hchannels x hx).not_lt, Binary32.zero_le_iff.2 (.inl hfinite),
      lt_count_of_within hcount⟩
  · intro hremembers
    have hvalid : ∀ p ∈ after.pixels, p.Valid := by
      apply pixels_runAll hcpu fun c hc => keeps_valid (hcpu c hc) (hremembers c hc)
      intro p hp
      rw [hzero p hp]
      exact Pixel.valid_zero
    exact fun p hp => (hvalid p hp).zero_le
  · intro threads kernel input later hkernel hact
    obtain ⟨scene, options, hkernel⟩ := hkernel
    have hw := wellFormed_of_kernel hkernel
    rw [pixels_act_cpu hw hact]
    exact forall₂_mapIdx fun i p hp => (hsound p hp).isNaN_next_iff hw _ _

/-- Frames of a ball in any order of clicks and seeds, on two pixels. -/
theorem pixels_valid_stage :
    ∃ kernel, Kernel.ofScene (Kernel.stage [Kernel.ball]) .standard = .ok kernel ∧
      ∃ acc, new 2 1 = .ok acc ∧ ∀ inputs : List FrameInput,
        let frames := inputs.map (Command.render (cpuBackend 4) kernel)
        ∀ p ∈ (Command.runAll act acc (frames ++ [.reset] ++ frames)).2.pixels,
          p.w.toFloat < 1.5e17 ∧ ∀ x ∈ p.channels, 0.0 ≤ x := by
  obtain ⟨-, program, hprogram⟩ := Kernel.exists_program_ball
  have hkernel := Kernel.ofScene_eq_ok_iff.2 ⟨program, hprogram, rfl⟩
  have hoptions : program.options = .standard :=
    (Program.spec_of_ofScene hprogram).2.2
  refine ⟨_, hkernel, _, rfl, fun inputs => ?_⟩
  intro frames p hp
  have hcommand : ∀ c ∈ frames ++ [.reset] ++ frames, c.OnCpu ∧ c.Remembers := by
    have hframe : ∀ c ∈ frames, c.OnCpu ∧ c.Remembers := by
      intro c hc
      obtain ⟨input, -, rfl⟩ := List.mem_map.1 hc
      refine ⟨⟨⟨4, rfl⟩, _, _, hkernel⟩, ?_⟩
      show ¬ (program.options.memory.toFloat == 0.0) = true
      rw [hoptions]
      decide
    simp only [List.mem_append, List.mem_singleton]
    rintro c ((hc | rfl) | hc)
    · exact hframe c hc
    · exact ⟨trivial, trivial⟩
    · exact hframe c hc
  obtain ⟨hall, hremembered, -⟩ :=
    pixels_valid (show new 2 1 = .ok _ from rfl) fun c hc => (hcommand c hc).1
  exact ⟨(hall p hp).2.2, hremembered (fun c hc => (hcommand c hc).2) p hp⟩

end Accumulator

/-! ## A glaring sky -/

/-- Nothing but air whose color is close to the greatest number there is. -/
def Scene.glare : Scene := { Scene.empty with air := { Material.plain with color := .splat 3e38 } }

/-- Two paths a frame, and frames that forget. -/
def Options.forgetful : Options Word := { Options.standard with memory := 0.0, iterations := 2 }

theorem Program.exists_ofScene_glare :
    Scene.glare.Closed ∧ (Scene.glare.build.run ∅).2.size ≤ UInt32.size ∧
      ∃ program, ofScene .glare .forgetful = .ok program := by
  have hclosed : Scene.glare.Closed := ⟨nofun, Scene.empty_closed.camera,
    Material.closed_iff.2 ⟨trivial, trivial, trivial, trivial, trivial, trivial⟩⟩
  have hvalid : Options.forgetful.validate = .ok () := by decide
  let trees : List Tree := Scene.emptyTrees ++ [.node (.constant (.splat 3e38))]
  have hplaces : Scene.glare.assemble.made =
      ([0, 1, 2, 3, 4, 2, 5, 2, 2, 5, 6, 7, 2] : List (Fin 8)).map trees.get := rfl
  exact ⟨hclosed, exists_ofScene_of_places hclosed _ hplaces (by decide) hvalid
    (by decide +kernel) (by decide +kernel) (by decide +kernel) (by decide +kernel)
    (by decide +kernel)⟩

/-- Each of two paths brings back the color of the air, and the sum is too large for a number. -/
theorem Tracer.radiance_glare {program : Program} (h : Program.ofScene .glare .forgetful = .ok program)
    (u : Uniforms) (x y : UInt32) :
    Infinite ((Tracer.new program u : Tracer Float32).radiance x y).x := by
  obtain ⟨hclosed, hsize, -⟩ := Program.exists_ofScene_glare
  obtain ⟨hw, hof, hoptions⟩ := Program.spec_of_ofScene h
  let tracer : Tracer Float32 := .new program u
  have hair : tracer.view.air.color = .splat (3e38 : Word).toFloat ∧
      tracer.view.air.scatter = maxDistance := by
    rw [Tracer.air_new hclosed (.inl hsize) h u]
    exact ⟨rfl, rfl⟩
  have hempty (p : Vec3 Float32) : tracer.world.closest p = .none :=
    Interpreter.closest_of_empty (hof.entities_eq_empty rfl) p
  have hepsilon : ¬ maxDistance < tracer.options.epsilon := by
    rw [Tracer.epsilon_new hoptions]
    decide
  have hbounces : tracer.options.bounces ≠ 0 := (Options.validate_eq_ok_iff.1 hw.options).bounces.1
  have hclear : ¬ (0.0 < tracer.view.air.scatter ∧ tracer.view.air.scatter < maxDistance) := by
    rw [hair.2]
    exact fun hscatter => Binary32.lt_irrefl _ hscatter.2
  have htrace (origin direction : Vec3 Float32) (rng : Pcg) :
      tracer.trace origin direction rng =
        (.splat (3e38 : Word).toFloat, rng) := by
    have hpath := trace_none hempty hepsilon (Tracer.within_stepFactor hw u) hbounces hclear origin
      direction rng
    rw [hair.1] at hpath
    exact hpath.trans (congrArg (·, rng) (by decide +kernel))
  have hiterations : tracer.options.iterations = 2 := congrArg Options.iterations hoptions
  -- Each path brings a finite number back, and only the sum of the two overflows.
  have hradiance : tracer.radiance x y =
      Shot.lightOfSum (.zero + .splat (3e38 : Word).toFloat + .splat (3e38 : Word).toFloat) := by
    unfold Tracer.radiance
    rw [hiterations]
    simp only [show (2 : UInt32).toNat = 2 from rfl, Tracer.sumPaths, htrace]
  rw [hradiance]
  exact (Binary32.isInf_iff (by decide +kernel)).1 (by decide +kernel)

namespace Accumulator

/-- The accumulator's image is a single pixel. -/
structure Single (acc : Accumulator) (p : Pixel) : Prop where
  width : acc.width = 1
  height : acc.height = 1
  size : (acc.buffer acc.readIndex).size = 16
  pixels : acc.pixels = [p]

/-- On a single pixel every frame succeeds. -/
theorem Single.act {acc : Accumulator} {p : Pixel} (h : acc.Single p) {kernel : Kernel}
    (hw : kernel.program.WellFormed) (threads : Nat) (input : FrameInput) :
    ∃ later, acc.act (.render (cpuBackend threads) kernel input) = (.ok (), later) ∧
      later.Single (Cpu.next kernel.program (acc.uniforms input) 0 0 p) := by
  have hdimensions : (acc.uniforms input).dimensions = (1, 1) := by
    unfold Accumulator.uniforms
    rw [h.width, h.height]
    show (Uniforms.ofSize 1 1).dimensions = (1, 1)
    decide +kernel
  have hcheck : acc.previous.checkFor (acc.uniforms input) = .ok () := by
    have hvalid : acc.previous.validate = .ok () := by
      unfold BufferView.validate Accumulator.previous
      rw [h.width, h.height, h.size]
      exact if_pos rfl
    unfold BufferView.checkFor
    rw [hvalid, hdimensions]
    unfold Accumulator.previous
    rw [h.width, h.height]
    rfl
  have hnext : (cpuBackend threads).dispatch kernel (acc.uniforms input) acc.previous
      (workgroups acc.width acc.height) =
        .ok (Pixel.toBytes [Cpu.next kernel.program (acc.uniforms input) 0 0 p]) := by
    have hpixels : Pixel.ofBytes acc.previous.data = [p] := h.pixels
    apply (Cpu.dispatch_eq_ok_iff hw).2
    rw [hpixels, hdimensions]
    exact ⟨hcheck, by
      rw [List.mapIdx_cons, List.mapIdx_nil, Cpu.nextAt, Nat.zero_mod, Nat.zero_div]⟩
  refine ⟨acc.wrote (Pixel.toBytes [Cpu.next kernel.program (acc.uniforms input) 0 0 p]), ?_, ?_⟩
  · have hsize : ∀ q : Pixel, (Pixel.toBytes [q]).size = (acc.buffer acc.readIndex).size :=
      fun q => (Pixel.size_toBytes [q]).trans h.size.symm
    rw [Accumulator.act, run_advance, hnext]
    exact if_pos (hsize _)
  · constructor
    · exact (acc.width_setBuffer _ _).trans h.width
    · exact (acc.height_setBuffer _ _).trans h.height
    · rw [readIndex_wrote, buffer_wrote]
      exact Pixel.size_toBytes _
    · rw [Accumulator.pixels, readIndex_wrote, buffer_wrote, Pixel.ofBytes_toBytes]

/-- The second frame forgets an infinite sum, and leaves what is not a number. -/
theorem pixels_not_valid_glare :
    ∃ kernel, Kernel.ofScene .glare .forgetful = .ok kernel ∧ ∃ acc, new 1 1 = .ok acc ∧
      ∀ input : FrameInput,
        let frame : Command := .render (cpuBackend 1) kernel input
        (Command.runAll act acc [frame, frame]).1 = [.ok (), .ok ()] ∧
          ∃ p, (Command.runAll act acc [frame, frame]).2.pixels = [p] ∧ p.x.toFloat.isNaN := by
  obtain ⟨-, -, program, hprogram⟩ := Program.exists_ofScene_glare
  have hkernel := Kernel.ofScene_eq_ok_iff.2 ⟨program, hprogram, rfl⟩
  have hw : (Kernel.ofProgram program).program.WellFormed := wellFormed_of_kernel hkernel
  have hzero : (program.options.memory.toFloat == 0.0) = true := by
    rw [(Program.spec_of_ofScene hprogram).2.2]
    decide
  refine ⟨_, hkernel, _, rfl, fun input => ?_⟩
  have hstart : Single ⟨1, 1, 0, blank 16, blank 16⟩ ⟨⟨0⟩, ⟨0⟩, ⟨0⟩, ⟨0⟩⟩ := ⟨rfl, rfl, rfl, rfl⟩
  obtain ⟨once, honce, hone⟩ := hstart.act hw 1 input
  obtain ⟨twice, htwice, htwo⟩ := hone.act hw 1 input
  have hrun : Command.runAll act ⟨1, 1, 0, blank 16, blank 16⟩
      [.render (cpuBackend 1) (.ofProgram program) input,
        .render (cpuBackend 1) (.ofProgram program) input] = ([.ok (), .ok ()], twice) := by
    simp only [Command.runAll, honce, htwice]
  -- The first frame leaves an infinite sum, which the second one multiplies by zero.
  have hbright : Infinite (Cpu.next program
      (Accumulator.uniforms ⟨1, 1, 0, blank 16, blank 16⟩ input) 0 0
        ⟨⟨0⟩, ⟨0⟩, ⟨0⟩, ⟨0⟩⟩).x.toFloat := by
    rw [(Cpu.lanes_next _ _ _ _ _).1]
    exact exposed_glare (Pixel.within_memory hw) (Tracer.radiance_glare hprogram _ _ _)
      (Binary32.within_zero 128)
  refine ⟨congrArg Prod.fst hrun, _, (congrArg (·.2.pixels) hrun).trans htwo.pixels, ?_⟩
  rw [(Cpu.lanes_next _ _ _ _ _).1]
  exact exposed_forgotten hzero hbright

end Accumulator

end SphereTracer
