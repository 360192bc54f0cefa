import Mathlib.Data.List.Basic
import SphereTracer.Image.Backend
import SphereTracer.Proofs.Kernel.Compositional
import SphereTracer.Proofs.Numbers.Bytes
import SphereTracer.Proofs.Program.Stage
import SphereTracer.Proofs.Trace.Worker

/-!
# Bands of rows

The bands of a frame are traced apart from each other, each by one worker from pixel to pixel.  The
bands tile the image, and what a worker gives a pixel does not depend on the pixels before it.  So a
frame is a map over the pixels, in whatever bands it is traced.
-/

namespace SphereTracer

/-! ## Images as bytes -/

namespace Pixel

theorem length_encode (p : Pixel) : p.encode.length = 16 := rfl

theorem decode_encode_append (p : Pixel) (rest : List UInt8) :
    decode (p.encode ++ rest) = p :: decode rest := by
  obtain ⟨⟨x⟩, ⟨y⟩, ⟨z⟩, ⟨w⟩⟩ := p
  simp only [encode, bytesOfUInt32, List.cons_append, List.nil_append, decode, uint32OfBytes_bytes]

theorem ofBytes_toBytes (pixels : List Pixel) : ofBytes (toBytes pixels) = pixels := by
  rw [ofBytes, toBytes, List.data_toByteArray]
  induction pixels with
  | nil => rfl
  | cons p rest ih => rw [List.flatMap_cons, decode_encode_append, ih]

theorem size_toBytes (pixels : List Pixel) : (toBytes pixels).size = pixels.length * 16 := by
  rw [toBytes, List.size_toByteArray]
  induction pixels with
  | nil => rfl
  | cons p rest ih =>
    rw [List.flatMap_cons, List.length_append, length_encode, ih, List.length_cons]
    omega

theorem exists_decode_eq_cons : ∀ {bytes : List UInt8}, 16 ≤ bytes.length →
    ∃ p rest, decode bytes = p :: decode rest ∧ bytes.length = rest.length + 16
  | _ :: _ :: _ :: _ :: _ :: _ :: _ :: _ :: _ :: _ :: _ :: _ :: _ :: _ :: _ :: _ :: rest, _ =>
    ⟨_, rest, rfl, rfl⟩

theorem length_decode {n : Nat} {bytes : List UInt8} (h : bytes.length = n * 16) :
    (decode bytes).length = n := by
  induction n generalizing bytes with
  | zero =>
    rw [List.length_eq_zero_iff.1 (h.trans (Nat.zero_mul 16))]
    rfl
  | succ n ih =>
    obtain ⟨p, rest, hdecode, hlength⟩ := exists_decode_eq_cons (show 16 ≤ bytes.length by omega)
    rw [hdecode, List.length_cons, ih (by omega)]

theorem length_ofBytes {n : Nat} {image : ByteArray} (h : image.size = n * 16) :
    (ofBytes image).length = n :=
  length_decode h

end Pixel

/-! ## Pieces -/

/-- A list that is mapped piece by piece, each member under its place in the whole list. -/
theorem flatten_mapIdx_chunks {α β : Type} {n : Nat} (hn : n ≠ 0) (f : Nat → α → β)
    (xs : List α) :
    ((chunks n xs).mapIdx fun i piece => piece.mapIdx fun j x => f (i * n + j) x).flatten =
      xs.mapIdx f := by
  fun_induction chunks n xs generalizing f with
  | case1 xs h =>
    obtain rfl := h.resolve_left hn
    rfl
  | case2 xs h ih =>
    have hlater : ∀ i j, (i + 1) * n + j = n + (i * n + j) := fun i j => by
      rw [Nat.succ_mul]
      omega
    have hlength : n ≤ xs.length ∨ xs.drop n = [] := by
      rw [List.drop_eq_nil_iff]
      omega
    rw [List.mapIdx_cons, List.flatten_cons]
    simp only [Nat.zero_mul, Nat.zero_add, hlater]
    rw [ih fun k x => f (n + k) x]
    conv_rhs => rw [← List.take_append_drop n xs, List.mapIdx_append]
    rcases hlength with hlength | hlength
    · rw [List.length_take_of_le hlength]
      simp only [Nat.add_comm]
    · rw [hlength]
      rfl

namespace Cpu

variable {program : Program} {u : Uniforms}

/-- The next value of a pixel, as the tracer of the frame has it. -/
def next (program : Program) (u : Uniforms) (x y : Nat) (old : Pixel) : Pixel :=
  ((Tracer.new program u : Tracer Float32).accumulate (UInt32.ofNat x) (UInt32.ofNat y)
    (old.map Word.toFloat)).map Word.ofFloat

/-- The next value of the pixel at a place in rows of the given width, counted from the first pixel
of row `first`. -/
def nextAt (program : Program) (u : Uniforms) (width first i : Nat) (old : Pixel) : Pixel :=
  next program u (i % width) (first + i / width) old

theorem pixel_of (hw : program.WellFormed) {worker : Worker Float32} (h : worker.Of program u)
    (x y : Nat) (old : Pixel) :
    (pixel worker x y old).1 = next program u x y old ∧ (pixel worker x y old).2.Of program u := by
  obtain ⟨hpixel, hafter⟩ :=
    h.accumulate hw (UInt32.ofNat x) (UInt32.ofNat y) (old.map Word.toFloat)
  exact ⟨congrArg (·.map Word.ofFloat) hpixel, hafter⟩

/-- What is traced after some pixels: the number of these is the place of the next one. -/
theorem foldl_extend (hw : program.WellFormed) (width first : Nat) (history : List Pixel)
    {worker : Worker Float32} (h : worker.Of program u) (done : Array Pixel) :
    (history.foldl (extend width first) (done, worker)).1.toList = done.toList ++
      history.mapIdx fun i old => nextAt program u width first (done.size + i) old := by
  -- By induction on the pixels; the worker is another one after each, and the place is the number
  -- of those that are done.
  induction history generalizing done worker with
  | nil => exact (List.append_nil _).symm
  | cons old rest ih =>
    obtain ⟨hpixel, hafter⟩ := pixel_of hw h (done.size % width) (first + done.size / width) old
    rw [List.foldl_cons, extend, ih hafter, List.mapIdx_cons, hpixel, Array.toList_push,
      Array.size_push, List.append_assoc]
    simp only [Nat.add_assoc, Nat.add_comm 1, Nat.add_zero]
    rfl

theorem band_eq_mapIdx (hw : program.WellFormed) (width first : Nat) (history : List Pixel) :
    band program u width first history = history.mapIdx (nextAt program u width first) := by
  have hband := foldl_extend hw width first history (Worker.of_new hw u) #[]
  simp only [Array.size_empty, Nat.zero_add] at hband
  exact hband

/-- The rows of a band follow those of the bands before it. -/
theorem nextAt_add_mul {width : Nat} (hwidth : 0 < width) (row i : Nat) :
    nextAt program u width 0 (row * width + i) = nextAt program u width row i := by
  funext old
  rw [nextAt, nextAt, Nat.mul_add_mod', Nat.add_comm (row * width), Nat.add_mul_div_right _ _ hwidth,
    Nat.zero_add, Nat.add_comm row]

/-- The bands of a frame tile the image. -/
theorem frame_eq_mapIdx (hw : program.WellFormed) {threads : Nat} (hthreads : 1 ≤ threads)
    (hwidth : 0 < u.dimensions.1.toNat) (hheight : 0 < u.dimensions.2.toNat)
    (history : List Pixel) :
    frame threads program u history =
      history.mapIdx (nextAt program u u.dimensions.1.toNat 0) := by
  have hrows : 0 < rowsPerBand threads u.dimensions.2.toNat :=
    Nat.div_pos (by omega) hthreads
  have hband (i : Nat) (piece : List Pixel) :
      band program u u.dimensions.1.toNat (i * rowsPerBand threads u.dimensions.2.toNat) piece =
        piece.mapIdx fun j old => nextAt program u u.dimensions.1.toNat 0
          (i * (rowsPerBand threads u.dimensions.2.toNat * u.dimensions.1.toNat) + j) old := by
    simp only [band_eq_mapIdx hw, ← Nat.mul_assoc, nextAt_add_mul hwidth]
  simp only [frame, hband]
  exact flatten_mapIdx_chunks (Nat.mul_pos hrows hwidth).ne' _ history

theorem place_lt {width height x y : Nat} (hx : x < width) (hy : y < height) :
    y * width + x < height * width :=
  calc y * width + x < y * width + width := Nat.add_lt_add_left hx _
    _ = (y + 1) * width := (Nat.succ_mul ..).symm
    _ ≤ height * width := Nat.mul_le_mul_right _ hy

/-- The pixel in a column and a row. -/
theorem nextAt_row_column {width x : Nat} (hx : x < width) (y : Nat) :
    nextAt program u width 0 (y * width + x) = next program u x y := by
  funext old
  rw [nextAt_add_mul (Nat.zero_lt_of_lt hx), nextAt, Nat.mod_eq_of_lt hx, Nat.div_eq_of_lt hx,
    Nat.add_zero]

end Cpu

/-! ## Frames -/

/-- What makes a view the image of a frame. -/
theorem BufferView.checkFor_eq_ok_iff {view : BufferView} {u : Uniforms} :
    view.checkFor u = .ok () ↔ view.validate = .ok () ∧
      ¬ (u.dimensions.1 = 0 ∨ u.dimensions.2 = 0) ∧
      ¬ (view.elementSize ≠ pixelBytes ∨
        view.shape ≠ [u.dimensions.2.toUInt64, u.dimensions.1.toUInt64]) := by
  unfold checkFor
  cases view.validate with
  | error fault => exact ⟨nofun, fun h => nomatch h.1⟩
  | ok =>
    by_cases hempty : u.dimensions.1 = 0 ∨ u.dimensions.2 = 0
    · simp [hempty, bind, Except.bind, throw, throwThe, MonadExceptOf.throw]
    · by_cases hlayout : view.elementSize ≠ pixelBytes ∨
        view.shape ≠ [u.dimensions.2.toUInt64, u.dimensions.1.toUInt64]
      · simp [hempty, hlayout, bind, Except.bind, throw, throwThe, MonadExceptOf.throw]
      · simp [hempty, hlayout, bind, Except.bind, pure, Except.pure]

/-- A view that fits a frame tells that the frame has pixels. -/
theorem BufferView.dimensions_pos_of_checkFor {view : BufferView} {u : Uniforms}
    (h : view.checkFor u = .ok ()) :
    0 < u.dimensions.1.toNat ∧ 0 < u.dimensions.2.toNat := by
  obtain ⟨-, hempty, -⟩ := checkFor_eq_ok_iff.1 h
  rw [not_or] at hempty
  have hpos {n : UInt32} (hn : n ≠ 0) : 0 < n.toNat :=
    Nat.pos_of_ne_zero fun hzero => hn (UInt32.toNat_inj.1 hzero)
  exact ⟨hpos hempty.1, hpos hempty.2⟩

namespace Cpu

/-- A dispatch makes an image exactly of a previous image that fits, and makes it pixel by pixel. -/
theorem dispatch_eq_ok_iff {kernel : Kernel} (hw : kernel.program.WellFormed) {u : Uniforms}
    {previous : BufferView} {threads : Nat} {groups : Vec3 UInt32} {image : ByteArray} :
    (cpuBackend threads).dispatch kernel u previous groups = .ok image ↔
      previous.checkFor u = .ok () ∧ image = Pixel.toBytes ((Pixel.ofBytes previous.data).mapIdx
        (nextAt kernel.program u u.dimensions.1.toNat 0)) := by
  change dispatch (max threads 1) kernel u previous = .ok image ↔ _
  unfold dispatch
  cases hcheck : previous.checkFor u with
  | error fault =>
    refine ⟨fun h => ?_, fun h => ?_⟩
    · cases h
    · cases h.1
  | ok =>
    obtain ⟨hwidth, hheight⟩ := BufferView.dimensions_pos_of_checkFor hcheck
    change Except.ok (Pixel.toBytes (frame (max threads 1) kernel.program u _)) = _ ↔ _
    rw [frame_eq_mapIdx hw (Nat.le_max_right threads 1) hwidth hheight, Except.ok.injEq, eq_comm]
    exact (and_iff_right rfl).symm

/-- A frame is a map over the pixels.  From a previous image that fits, any number of threads makes
one and the same image, of the same size; the pixel in column `x` and row `y` becomes what a worker
made for this pixel alone gives it, which is also what the tracer of the frame gives it.  In another
image in which it had the same value it becomes the same, whatever the other pixels were. -/
theorem dispatch_pixelwise {scene : Scene} {options : Options Word} {kernel : Kernel}
    (hkernel : Kernel.ofScene scene options = .ok kernel) {u : Uniforms} {previous : BufferView}
    (hcheck : previous.checkFor u = .ok ())
    (hsize : previous.data.size = u.dimensions.2.toNat * u.dimensions.1.toNat * 16) :
    ∃ image, (∀ threads groups,
        (cpuBackend threads).dispatch kernel u previous groups = .ok image) ∧
      image.size = previous.data.size ∧
      ∀ x y : UInt32, x < u.dimensions.1 → y < u.dimensions.2 →
        let place := y.toNat * u.dimensions.1.toNat + x.toNat
        let worker : Worker Float32 := .new kernel.program u
        let tracer : Tracer Float32 := .new kernel.program u
        ∃ old, (Pixel.ofBytes previous.data)[place]? = some old ∧
          (Pixel.ofBytes image)[place]? =
            some ((worker.accumulate x y (old.map Word.toFloat)).1.map Word.ofFloat) ∧
          (worker.accumulate x y (old.map Word.toFloat)).1 =
            tracer.accumulate x y (old.map Word.toFloat) ∧
          ∀ threads groups previous' image',
            (cpuBackend threads).dispatch kernel u previous' groups = .ok image' →
            (Pixel.ofBytes previous'.data)[place]? = some old →
            (Pixel.ofBytes image')[place]? = (Pixel.ofBytes image)[place]? := by
  obtain ⟨program, hprogram, hof⟩ := Kernel.ofScene_eq_ok_iff.1 hkernel
  have hw : kernel.program.WellFormed := hof ▸ (Program.spec_of_ofScene hprogram).1
  have hlength := Pixel.length_ofBytes hsize
  refine ⟨_, fun threads groups => (dispatch_eq_ok_iff hw).2 ⟨hcheck, rfl⟩, ?_,
    fun x y hx hy => ?_⟩
  · rw [Pixel.size_toBytes, List.length_mapIdx, hlength, hsize]
  · intro place worker tracer
    have hcolumn := UInt32.lt_iff_toNat_lt.1 hx
    have hplace : place < (Pixel.ofBytes previous.data).length := by
      rw [hlength]
      exact place_lt hcolumn (UInt32.lt_iff_toNat_lt.1 hy)
    have hmapped {history : List Pixel} {old : Pixel} (hold : history[place]? = some old) :
        (history.mapIdx (nextAt kernel.program u u.dimensions.1.toNat 0))[place]? =
          some (next kernel.program u x.toNat y.toNat old) := by
      rw [List.getElem?_mapIdx, hold, nextAt_row_column hcolumn]
      rfl
    obtain ⟨hpixel, -⟩ :=
      (Worker.of_new hw u).accumulate hw x y (((Pixel.ofBytes previous.data)[place]).map Word.toFloat)
    have hold := List.getElem?_eq_getElem hplace
    refine ⟨_, hold, ?_, hpixel, fun threads groups previous' image' himage' hold' => ?_⟩
    · rw [Pixel.ofBytes_toBytes, hmapped hold, next, UInt32.ofNat_toNat, UInt32.ofNat_toNat,
        ← hpixel]
    · obtain ⟨-, rfl⟩ := (dispatch_eq_ok_iff hw).1 himage'
      rw [Pixel.ofBytes_toBytes, Pixel.ofBytes_toBytes, hmapped hold, hmapped hold']

open Kernel in
/-- Seven columns and five rows by one thread, and by three that get two rows, two rows and one: the
last pixel of the short band. -/
theorem dispatch_pixelwise_stage :
    ∃ kernel, Kernel.ofScene (stage [ball, ground]) .standard = .ok kernel ∧
      let u : Uniforms := .ofSize 7 5
      let previous : BufferView :=
        ⟨Pixel.toBytes (List.replicate 35 ⟨0.5, 0.25, 0.125, 1.0⟩), [5, 7], 16⟩
      let worker : Worker Float32 := .new kernel.program u
      ∃ image, (cpuBackend 1).dispatch kernel u previous ⟨1, 1, 1⟩ = .ok image ∧
        (cpuBackend 3).dispatch kernel u previous ⟨1, 1, 1⟩ = .ok image ∧ image.size = 35 * 16 ∧
        (Pixel.ofBytes image)[34]? =
          some ((worker.accumulate 6 4 ⟨0.5, 0.25, 0.125, 1.0⟩).1.map Word.ofFloat) := by
  obtain ⟨-, program, hprogram⟩ := exists_program_pair
  have hkernel := Kernel.ofScene_eq_ok_iff.2 ⟨program, hprogram, rfl⟩
  refine ⟨_, hkernel, ?_⟩
  intro u previous worker
  have hdata : previous.data.size = 35 * 16 := by rw [Pixel.size_toBytes, List.length_replicate]
  have hhistory : Pixel.ofBytes previous.data = List.replicate 35 ⟨0.5, 0.25, 0.125, 1.0⟩ := by
    simp only [previous, Pixel.ofBytes_toBytes]
  have hdimensions : u.dimensions = (7, 5) := by decide +kernel
  have hcheck : previous.checkFor u = .ok () := by decide +kernel
  obtain ⟨image, himage, hsize, hpixels⟩ :=
    dispatch_pixelwise hkernel hcheck (by rw [hdata, hdimensions]; rfl)
  refine ⟨image, himage 1 _, himage 3 _, hsize.trans hdata, ?_⟩
  obtain ⟨old, hold, hpixel, -⟩ := hpixels 6 4 (by rw [hdimensions]; decide)
    (by rw [hdimensions]; decide)
  rw [hdimensions] at hold hpixel
  have hplace : (4 : UInt32).toNat * (7 : UInt32).toNat + (6 : UInt32).toNat = 34 := rfl
  dsimp only at hold hpixel
  rw [hplace] at hold hpixel
  have holds : (⟨0.5, 0.25, 0.125, 1.0⟩ : Pixel) = old := by
    rw [hhistory, List.getElem?_replicate, if_pos (by decide)] at hold
    exact Option.some.inj hold
  subst holds
  exact hpixel

end Cpu

end SphereTracer
