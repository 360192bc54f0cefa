import Mathlib.Data.List.Basic
import SphereTracer.Image.Accumulator

/-!
# The progress of a render

An accumulator swaps two images under a counter that wraps around.  Seen from outside it holds one
image, which the next frame continues: the last one that a backend has delivered in the right size
since the accumulator was cleared.
-/

namespace SphereTracer

/-! ## Images of zeros -/

namespace Pixel

theorem eq_zero_of_mem_decode {bytes : List UInt8} (h : ∀ b ∈ bytes, b = 0) :
    ∀ p ∈ decode bytes, p = ⟨⟨0⟩, ⟨0⟩, ⟨0⟩, ⟨0⟩⟩ := by
  fun_induction decode bytes with
  | case1 a₀ a₁ a₂ a₃ b₀ b₁ b₂ b₃ c₀ c₁ c₂ c₃ d₀ d₁ d₂ d₃ rest ih =>
    simp only [List.forall_mem_cons] at h
    obtain ⟨rfl, rfl, rfl, rfl, rfl, rfl, rfl, rfl, rfl, rfl, rfl, rfl, rfl, rfl, rfl, rfl, h⟩ := h
    exact List.forall_mem_cons.2 ⟨rfl, ih h⟩
  | case2 => exact List.forall_mem_nil _

end Pixel

namespace Accumulator

theorem data_blank (n : Nat) : (blank n).data.toList = List.replicate n 0 := by
  induction n with
  | zero => rfl
  | succ n ih =>
    rw [List.replicate_succ', ← ih]
    exact Array.toList_push

theorem eq_zero_of_mem_blank (n : Nat) :
    ∀ p ∈ Pixel.ofBytes (blank n), p = ⟨⟨0⟩, ⟨0⟩, ⟨0⟩, ⟨0⟩⟩ := by
  apply Pixel.eq_zero_of_mem_decode
  rw [data_blank]
  exact fun b hb => List.eq_of_mem_replicate hb

end Accumulator

/-! ## Commands -/

/-- What can be asked of an accumulator; every frame may have another backend. -/
inductive Command where
  | render (backend : Backend) (kernel : Kernel) (input : FrameInput)
  | reset

/-- Acts on commands one after the other, whether they succeed or not.  Gives the answers, and the
state after them. -/
def Command.runAll {σ : Type} (act : σ → Command → Except RenderError Unit × σ) (s : σ) :
    List Command → List (Except RenderError Unit) × σ
  | [] => ([], s)
  | c :: rest =>
    let (answer, s) := act s c
    let (answers, s) := runAll act s rest
    (answer :: answers, s)

/-- The images that backends have delivered in the right size since the render was last cleared, the
latest first. -/
structure Progress where
  width : UInt32
  height : UInt32
  delivered : List ByteArray

namespace Progress

/-- Before the first frame. -/
def start (width height : UInt32) : Progress := ⟨width, height, []⟩

/-- The bytes of each of its images. -/
def bytes (s : Progress) : Nat := (Accumulator.imageBytes s.width s.height).toNat

/-- The one image that the render holds: the latest, or zeros if there is none. -/
def image (s : Progress) : ByteArray := s.delivered.headD (Accumulator.blank s.bytes)

/-- The image as a backend gets it. -/
def view (s : Progress) : BufferView :=
  ⟨s.image, [s.height.toUInt64, s.width.toUInt64], pixelBytes⟩

/-- The inputs of the next frame. -/
def uniforms (s : Progress) (input : FrameInput) : Uniforms where
  resolution := (Uniforms.ofSize s.width s.height).resolution
  mouse := input.mouse
  time := input.time
  frame := UInt32.ofNat s.delivered.length
  clicked := if input.clicked then 1 else 0
  seed := input.seed

/-- What a backend makes of the image. -/
def deliver (s : Progress) (backend : Backend) (kernel : Kernel) (input : FrameInput) :
    Except RenderError ByteArray :=
  backend.dispatch kernel (s.uniforms input) s.view (workgroups s.width s.height)

/-- What a backend has delivered takes the place of the image if it has its size; else nothing
changes. -/
def act (s : Progress) : Command → Except RenderError Unit × Progress
  | .render backend kernel input =>
    match s.deliver backend kernel input with
    | .error e => (.error e, s)
    | .ok next =>
      if next.size = s.bytes then (.ok (), { s with delivered := next :: s.delivered })
      else (.error (.shape .result), s)
  | .reset => (.ok (), { s with delivered := [] })

end Progress

namespace Accumulator

variable {acc : Accumulator} {s : Progress}

/-- Acts on a command in place. -/
def act (acc : Accumulator) : Command → Except RenderError Unit × Accumulator
  | .render backend kernel input => (advance backend kernel input).run.run acc
  | .reset => (.ok (), acc.reset)

/-! ## One frame -/

theorem readIndex_cases (acc : Accumulator) :
    acc.readIndex = 0 ∧ acc.writeIndex = 1 ∨ acc.readIndex = 1 ∧ acc.writeIndex = 0 := by
  have hlt : acc.readIndex < 2 := Nat.mod_lt _ Nat.two_pos
  unfold writeIndex
  omega

@[simp] theorem frame_setBuffer (acc : Accumulator) (i : Nat) (data : ByteArray) :
    (acc.setBuffer i data).frame = acc.frame := by
  unfold setBuffer
  split <;> rfl

@[simp] theorem width_setBuffer (acc : Accumulator) (i : Nat) (data : ByteArray) :
    (acc.setBuffer i data).width = acc.width := by
  unfold setBuffer
  split <;> rfl

@[simp] theorem height_setBuffer (acc : Accumulator) (i : Nat) (data : ByteArray) :
    (acc.setBuffer i data).height = acc.height := by
  unfold setBuffer
  split <;> rfl

/-- The accumulator after a frame for which the backend has delivered an image. -/
def wrote (acc : Accumulator) (next : ByteArray) : Accumulator :=
  let written := acc.setBuffer acc.writeIndex next
  { written with frame := written.frame + 1 }

theorem frame_wrote (acc : Accumulator) (next : ByteArray) :
    (acc.wrote next).frame = acc.frame + 1 :=
  congrArg (· + 1) (acc.frame_setBuffer acc.writeIndex next)

/-- The next frame reads what this one writes; the counter is even before it wraps around to zero if
it is odd. -/
theorem readIndex_wrote (acc : Accumulator) (next : ByteArray) :
    (acc.wrote next).readIndex = acc.writeIndex := by
  -- The parity changes with every frame, also with the one that wraps around.
  have hcount : (acc.frame + 1).toNat % 2 = 1 - acc.frame.toNat % 2 := by
    rw [UInt32.toNat_add]
    change (acc.frame.toNat + 1) % 4294967296 % 2 = 1 - acc.frame.toNat % 2
    omega
  rw [readIndex, frame_wrote, hcount]
  rfl

theorem writeIndex_wrote (acc : Accumulator) (next : ByteArray) :
    (acc.wrote next).writeIndex = acc.readIndex := by
  have hread := acc.readIndex_wrote next
  have hcases := acc.readIndex_cases
  rw [writeIndex, hread]
  omega

theorem buffer_wrote (acc : Accumulator) (next : ByteArray) :
    (acc.wrote next).buffer acc.writeIndex = next := by
  rcases acc.readIndex_cases with ⟨-, hwrite⟩ | ⟨-, hwrite⟩ <;>
    simp [wrote, setBuffer, buffer, hwrite]

/-- A frame does not write the image that it reads. -/
theorem buffer_readIndex_wrote (acc : Accumulator) (next : ByteArray) :
    (acc.wrote next).buffer acc.readIndex = acc.buffer acc.readIndex := by
  rcases acc.readIndex_cases with ⟨hread, hwrite⟩ | ⟨hread, hwrite⟩ <;>
    simp [wrote, setBuffer, buffer, hread, hwrite]

/-- All that a frame can do: the error of the backend, an image of the wrong size, or an image. -/
theorem run_advance (acc : Accumulator) (backend : Backend) (kernel : Kernel) (input : FrameInput) :
    (advance backend kernel input).run.run acc =
      match backend.dispatch kernel (acc.uniforms input) acc.previous
        (workgroups acc.width acc.height) with
      | .error e => (.error e, acc)
      | .ok next =>
        if next.size = (acc.buffer acc.readIndex).size then (.ok (), acc.wrote next)
        else (.error (.shape .result), acc) := by
  rw [advance, ExceptT.run_bind, StateT.run_bind]
  change StateT.run (ExceptT.run _) acc = _
  dsimp only
  rw [ExceptT.run_bind, StateT.run_bind]
  cases hnext : backend.dispatch kernel (acc.uniforms input) acc.previous
    (workgroups acc.width acc.height) with
  | error e => rfl
  | ok next =>
    change StateT.run (ExceptT.run (ite (next.size ≠ (acc.buffer acc.readIndex).size) _ _)) acc = _
    dsimp only
    by_cases hsize : next.size = (acc.buffer acc.readIndex).size
    · rw [if_neg (not_not.2 hsize), if_pos hsize]
      rfl
    · rw [if_pos hsize, if_neg hsize]
      rfl

/-! ## Refinement -/

/-- The accumulator holds the image of a render, and has room for the next one. -/
structure Shows (acc : Accumulator) (s : Progress) : Prop where
  width : acc.width = s.width
  height : acc.height = s.height
  frame : acc.frame = UInt32.ofNat s.delivered.length
  image : acc.buffer acc.readIndex = s.image
  size : (acc.buffer acc.readIndex).size = s.bytes
  spare : (acc.buffer acc.writeIndex).size = s.bytes

theorem shows_start {width height : UInt32} (h : new width height = .ok acc) :
    acc.Shows (.start width height) := by
  unfold new at h
  split at h
  · cases h
  · cases h
    exact ⟨rfl, rfl, rfl, rfl, size_blank _, size_blank _⟩

namespace Shows

theorem previous_eq (h : acc.Shows s) : acc.previous = s.view := by
  rw [previous, Progress.view, h.image, h.width, h.height]

theorem uniforms_eq (h : acc.Shows s) (input : FrameInput) :
    acc.uniforms input = s.uniforms input := by
  rw [uniforms, Progress.uniforms, h.frame, h.width, h.height]

theorem readIndex_eq (h : acc.Shows s) : acc.readIndex = s.delivered.length % 2 := by
  rw [readIndex, h.frame, UInt32.toNat_ofNat']
  omega

/-- Both images have the size of the frame. -/
theorem size_buffer (h : acc.Shows s) (i : ℕ) : (acc.buffer i).size = s.bytes := by
  have hsize := h.size
  have hspare := h.spare
  unfold buffer at *
  obtain ⟨hread, hwrite⟩ | ⟨hread, hwrite⟩ := acc.readIndex_cases <;> rw [hread] at hsize <;>
    rw [hwrite] at hspare <;> split <;> assumption

/-- A reset clears as much as the first image has. -/
theorem reset (h : acc.Shows s) : acc.reset.Shows { s with delivered := [] } := by
  have hfirst : acc.first.size = s.bytes := h.size_buffer 0
  unfold Accumulator.reset
  rw [hfirst]
  exact ⟨h.width, h.height, rfl, rfl, size_blank _, size_blank _⟩

theorem wrote (h : acc.Shows s) {next : ByteArray} (hsize : next.size = s.bytes) :
    (acc.wrote next).Shows { s with delivered := next :: s.delivered } where
  width := (acc.width_setBuffer _ _).trans h.width
  height := (acc.height_setBuffer _ _).trans h.height
  frame := by
    rw [frame_wrote, h.frame]
    exact (UInt32.ofNat_add s.delivered.length 1).symm
  image := by
    rw [readIndex_wrote, buffer_wrote]
    rfl
  size := by
    rw [readIndex_wrote, buffer_wrote]
    exact hsize
  spare := by
    rw [writeIndex_wrote, buffer_readIndex_wrote]
    exact h.size

/-- One command: the same answer, and again an accumulator that holds the image. -/
theorem act (h : acc.Shows s) (c : Command) :
    (acc.act c).1 = (s.act c).1 ∧ (acc.act c).2.Shows (s.act c).2 := by
  cases c with
  | reset => exact ⟨rfl, h.reset⟩
  | render backend kernel input =>
    rw [Accumulator.act, run_advance, h.previous_eq, h.uniforms_eq, h.width, h.height, h.size,
      Progress.act, Progress.deliver]
    split
    · exact ⟨rfl, h⟩
    · split
      · next hsize => exact ⟨rfl, h.wrote hsize⟩
      · exact ⟨rfl, h⟩

/-- All commands. -/
theorem runAll (h : acc.Shows s) (commands : List Command) :
    (Command.runAll Accumulator.act acc commands).1 =
        (Command.runAll Progress.act s commands).1 ∧
      (Command.runAll Accumulator.act acc commands).2.Shows
        (Command.runAll Progress.act s commands).2 := by
  induction commands generalizing acc s with
  | nil => exact ⟨rfl, h⟩
  | cons c rest ih =>
    obtain ⟨hanswer, hshows⟩ := h.act c
    obtain ⟨hanswers, hafter⟩ := ih hshows
    exact ⟨congrArg₂ List.cons hanswer hanswers, hafter⟩

end Shows

/-- A frame either fails and leaves the accumulator as it was, or puts what the backend has delivered
into the image that it does not read and swaps the two. -/
theorem act_render_cases (acc : Accumulator) (backend : Backend) (kernel : Kernel)
    (input : FrameInput) :
    (∃ e, acc.act (.render backend kernel input) = (.error e, acc)) ∨
      ∃ next, backend.dispatch kernel (acc.uniforms input) acc.previous
          (workgroups acc.width acc.height) = .ok next ∧
        acc.act (.render backend kernel input) = (.ok (), acc.wrote next) := by
  rw [act, run_advance]
  split
  · exact .inl ⟨_, rfl⟩
  · next next hnext =>
    split
    · exact .inr ⟨next, hnext, rfl⟩
    · exact .inl ⟨_, rfl⟩

/-- The two images and the wrapping counter stand for one image.  Whatever is asked of a fresh
accumulator, it answers like a render that keeps the latest image only: every frame continues that
image, under the count of the frames since the last reset, and afterwards the pixels are those of
the image, which are zero before the first frame.

Of the next frame: if it fails, nothing has changed; else it has left the image that it read, has
put what was delivered into the other one, and the two have changed places. -/
theorem refines_progress {width height : UInt32} (h : new width height = .ok acc)
    (commands : List Command) :
    let after := (Command.runAll act acc commands).2
    let s := (Command.runAll Progress.act (.start width height) commands).2
    (Command.runAll act acc commands).1 =
        (Command.runAll Progress.act (.start width height) commands).1 ∧
      after.pixels = Pixel.ofBytes s.image ∧
      (s.delivered = [] → ∀ p ∈ after.pixels, p = ⟨⟨0⟩, ⟨0⟩, ⟨0⟩, ⟨0⟩⟩) ∧
      after.frame.toNat = s.delivered.length % UInt32.size ∧
      after.readIndex = s.delivered.length % 2 ∧ after.readIndex ≠ after.writeIndex ∧
      after.previous = s.view ∧
      ∀ backend kernel input,
        after.uniforms input = s.uniforms input ∧
        ((∃ e, after.act (.render backend kernel input) = (.error e, after)) ∨
          ∃ next later, after.act (.render backend kernel input) = (.ok (), later) ∧
            backend.dispatch kernel (s.uniforms input) s.view (workgroups s.width s.height) =
              .ok next ∧
            later.pixels = Pixel.ofBytes next ∧
            later.buffer after.readIndex = after.buffer after.readIndex ∧
            later.buffer after.writeIndex = next ∧
            later.readIndex = after.writeIndex ∧ later.writeIndex = after.readIndex) := by
  intro after s
  obtain ⟨hanswers, hshows⟩ := (shows_start h).runAll commands
  have hpixels : after.pixels = Pixel.ofBytes s.image := congrArg Pixel.ofBytes hshows.image
  refine ⟨hanswers, hpixels, fun hnone => ?_, ?_, hshows.readIndex_eq, ?_, hshows.previous_eq,
    fun backend kernel input => ⟨hshows.uniforms_eq input, ?_⟩⟩
  · have hblank : s.image = blank s.bytes := by rw [Progress.image, hnone, List.headD_nil]
    rw [hpixels, hblank]
    exact eq_zero_of_mem_blank _
  · exact (congrArg UInt32.toNat hshows.frame).trans UInt32.toNat_ofNat'
  · have hcases := after.readIndex_cases
    omega
  · obtain ⟨e, he⟩ | ⟨next, hnext, hact⟩ := after.act_render_cases backend kernel input
    · exact .inl ⟨e, he⟩
    · rw [hshows.previous_eq, hshows.uniforms_eq, hshows.width, hshows.height] at hnext
      refine .inr ⟨next, _, hact, hnext, ?_, after.buffer_readIndex_wrote next,
        after.buffer_wrote next, after.readIndex_wrote next, after.writeIndex_wrote next⟩
      rw [pixels, readIndex_wrote, buffer_wrote]

/-- Two frames, a reset and one more frame on a single pixel; then a backend fails and another one
delivers nothing. -/
theorem refines_progress_single :
    ∃ acc, new 1 1 = .ok acc ∧ ∀ kernel input,
      let paint (p : Pixel) : Command := .render ⟨"paint", fun _ _ _ _ => .ok p.encode.toByteArray⟩
        kernel input
      let commands := [paint ⟨1.0, 2.0, 3.0, 1.0⟩, paint ⟨3.0, 2.0, 1.0, 2.0⟩, .reset,
        paint ⟨0.5, 0.25, 0.125, 1.0⟩,
        .render ⟨"away", fun _ _ _ _ => .error .unavailable⟩ kernel input,
        .render ⟨"short", fun _ _ _ _ => .ok .empty⟩ kernel input]
      let after := (Command.runAll act acc commands).2
      (Command.runAll act acc commands).1 = [.ok (), .ok (), .ok (), .ok (), .error .unavailable,
          .error (.shape .result)] ∧
        after.pixels = [⟨0.5, 0.25, 0.125, 1.0⟩] ∧ after.frame = 1 ∧ after.readIndex = 1 := by
  refine ⟨_, rfl, fun kernel input => ?_⟩
  intro paint commands after
  have hnew : new 1 1 = .ok ⟨1, 1, 0, blank 16, blank 16⟩ := rfl
  obtain ⟨hanswers, hpixels, -, hframe, hread, -⟩ := refines_progress hnew commands
  exact ⟨hanswers.trans rfl, hpixels.trans rfl, UInt32.toNat_inj.1 hframe, hread⟩

end Accumulator

end SphereTracer
