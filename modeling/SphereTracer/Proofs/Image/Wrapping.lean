import SphereTracer.Proofs.Image.Size

/-!
# Sizes in machine words

The length that a shape asks for is a product in words of 64 bits, which wraps around.  Below 2 ^ 64
bytes it is the product of the sizes; beyond, a shorter buffer passes for the whole image.  Limits of
allocation are not modelled: data may have any length here, also one of 2 ^ 63 bytes and more, which
no machine allocates.
-/

namespace SphereTracer

namespace BufferView

/-- The bytes of some dimensions and an element size, without a bound. -/
def bytes (shape : List UInt64) (elementSize : UInt64) : ℕ :=
  (shape.map UInt64.toNat).prod * elementSize.toNat

theorem toNat_foldl_mul (acc : UInt64) (sizes : List UInt64) :
    (sizes.foldl (· * ·) acc).toNat = acc.toNat * (sizes.map UInt64.toNat).prod % 2 ^ 64 := by
  induction sizes generalizing acc with
  | nil => simp
  | cons size sizes ih =>
    rw [List.foldl_cons, ih, UInt64.toNat_mul, List.map_cons, List.prod_cons, Nat.mod_mul_mod,
      Nat.mul_assoc]

variable (data : ByteArray) (shape : List UInt64) (elementSize : UInt64)

theorem toNat_expected :
    (mk data shape elementSize).expected.toNat = bytes shape elementSize % 2 ^ 64 := by
  rw [expected, UInt64.toNat_mul, toNat_foldl_mul, UInt64.toNat_one, Nat.one_mul, Nat.mod_mul_mod,
    bytes]

/-- Data is accepted if its length is the one asked for, modulo 2 ^ 64. -/
theorem validate_eq_ok_iff : (mk data shape elementSize).validate = .ok () ↔
    data.size = bytes shape elementSize % 2 ^ 64 := by
  rw [validate, toNat_expected]
  split
  · next h => exact iff_of_true rfl h
  · next h => exact iff_of_false (by simp) h

/-- A shape is checked exactly, whatever the data, if its bytes can be counted. -/
theorem validate_exact_iff :
    (∀ data, (mk data shape elementSize).validate = .ok () ↔
      data.size = bytes shape elementSize) ↔ bytes shape elementSize < 2 ^ 64 := by
  constructor
  · intro h
    -- Data of the wrapped length passes, so the wrapped length is the whole one.
    have hsize := Accumulator.size_blank (bytes shape elementSize % 2 ^ 64)
    have hwhole := (h _).1 ((validate_eq_ok_iff _ _ _).2 hsize)
    exact Nat.mod_eq_iff_lt (by norm_num) |>.1 (hsize.symm.trans hwhole)
  · intro hlt data
    rw [validate_eq_ok_iff, Nat.mod_eq_of_lt hlt]

end BufferView

/-! ## Frames -/

namespace Uniforms

variable (u : Uniforms)

/-- The shape of the images of a frame. -/
def imageShape : List UInt64 := [u.dimensions.2.toUInt64, u.dimensions.1.toUInt64]

theorem bytes_imageShape : BufferView.bytes u.imageShape pixelBytes = u.pixelCount * 16 := by
  change (u.dimensions.2.toNat * (u.dimensions.1.toNat * 1)) * 16 = _
  rw [Nat.mul_one, Nat.mul_comm u.dimensions.2.toNat]
  rfl

/-- What a frame accepts as its previous image. -/
theorem checkFor_eq_ok_iff {view : BufferView} : view.checkFor u = .ok () ↔
    0 < u.pixelCount ∧ view.elementSize = pixelBytes ∧ view.shape = u.imageShape ∧
      view.data.size = u.pixelCount * 16 % 2 ^ 64 := by
  obtain ⟨data, shape, elementSize⟩ := view
  have hpixels : ¬ (u.dimensions.1 = 0 ∨ u.dimensions.2 = 0) ↔ 0 < u.pixelCount := by
    have hzero (n : UInt32) : n = 0 ↔ n.toNat = 0 := UInt32.toNat_inj.symm
    rw [pixelCount, Nat.pos_iff_ne_zero, ne_eq, Nat.mul_eq_zero, hzero, hzero]
  rw [BufferView.checkFor_eq_ok_iff, hpixels, not_or, not_not, not_not,
    BufferView.validate_eq_ok_iff, ← bytes_imageShape]
  constructor
  · rintro ⟨hsize, hpos, rfl, rfl⟩
    exact ⟨hpos, rfl, rfl, hsize⟩
  · rintro ⟨hpos, rfl, rfl, hsize⟩
    exact ⟨hsize, hpos, rfl, rfl⟩

/-- No frame takes a previous image that is too short, if the bytes of its pixels can be counted. -/
theorem checkFor_exact_iff :
    (∀ view : BufferView, view.checkFor u = .ok () → u.pixelCount * 16 ≤ view.data.size) ↔
      u.pixelCount < 2 ^ 60 := by
  constructor
  · intro h
    by_contra hmany
    have hsize := Accumulator.size_blank (u.pixelCount * 16 % 2 ^ 64)
    have hwhole := h ⟨Accumulator.blank (u.pixelCount * 16 % 2 ^ 64), u.imageShape, pixelBytes⟩
      ((checkFor_eq_ok_iff u).2 ⟨by omega, rfl, rfl, hsize⟩)
    rw [hsize] at hwhole
    omega
  · intro hfew view hview
    obtain ⟨-, -, -, hsize⟩ := (checkFor_eq_ok_iff u).1 hview
    omega

end Uniforms

/-! ## Accumulators -/

namespace Accumulator

theorem toNat_imageBytes (width height : UInt32) :
    (imageBytes width height).toNat = width.toNat * height.toNat * 16 % 2 ^ 64 := by
  rw [imageBytes, UInt64.toNat_mul, UInt64.toNat_mul, UInt32.toNat_toUInt64, UInt32.toNat_toUInt64,
    Nat.mod_mul_mod]
  rfl

theorem buffers_exact_iff (width height : UInt32) :
    (∀ acc, new width height = .ok acc → ∀ commands i,
      ((Command.runAll act acc commands).2.buffer i).size = width.toNat * height.toNat * 16) ↔
      width.toNat * height.toNat < 2 ^ 60 := by
  have hsize (acc : Accumulator) (hnew : new width height = .ok acc) (commands : List Command)
      (i : ℕ) : ((Command.runAll act acc commands).2.buffer i).size =
        width.toNat * height.toNat * 16 % 2 ^ 64 := by
    obtain ⟨-, hshows⟩ := (shows_start hnew).runAll commands
    obtain ⟨hwidth, hheight⟩ := (Progress.start width height).size_runAll commands
    rw [hshows.size_buffer, Progress.bytes, hwidth, hheight]
    exact toNat_imageBytes width height
  constructor
  · intro h
    by_contra hmany
    have hpos : width ≠ 0 ∧ height ≠ 0 := by
      constructor <;> rintro rfl <;> simp at hmany
    obtain ⟨acc, hnew⟩ := new_eq_ok_iff.2 hpos
    have hwhole := h acc hnew [] 0
    rw [hsize acc hnew] at hwhole
    omega
  · intro hfew acc hnew commands i
    rw [hsize acc hnew]
    omega

end Accumulator

/-- Sizes are exact as long as they can be counted in 64 bits.  The check of a view compares the length
of its data with the product of its dimensions and element size modulo 2 ^ 64, so it decides whether
the two agree, for all data, if the product is below 2 ^ 64.  An accumulator holds, through any renders
and resets, two images of 16 bytes for each pixel if it has fewer than 2 ^ 60 pixels; and for such
sizes no frame takes a previous image with fewer bytes than its pixels need.  Without limits of
allocation all three conditions are necessary as well: the data or the images that then break the
law have the length that the product leaves modulo 2 ^ 64, which may be 2 ^ 63 and more. -/
theorem sizes_exact_iff_countable (shape : List UInt64) (elementSize : UInt64)
    (width height : UInt32) (u : Uniforms) :
    (∀ data, (BufferView.mk data shape elementSize).validate = .ok () ↔
      data.size = BufferView.bytes shape elementSize % 2 ^ 64) ∧
    ((∀ data, (BufferView.mk data shape elementSize).validate = .ok () ↔
      data.size = BufferView.bytes shape elementSize) ↔
        BufferView.bytes shape elementSize < 2 ^ 64) ∧
    ((∀ acc, Accumulator.new width height = .ok acc → ∀ commands i,
      ((Command.runAll Accumulator.act acc commands).2.buffer i).size =
        width.toNat * height.toNat * 16) ↔ width.toNat * height.toNat < 2 ^ 60) ∧
    ((∀ view : BufferView, view.checkFor u = .ok () → u.pixelCount * 16 ≤ view.data.size) ↔
      u.pixelCount < 2 ^ 60) :=
  ⟨fun data => BufferView.validate_eq_ok_iff data shape elementSize,
    BufferView.validate_exact_iff shape elementSize, Accumulator.buffers_exact_iff width height,
    u.checkFor_exact_iff⟩

/-- A square of 2 ^ 31 by 2 ^ 31 has no bytes modulo 2 ^ 64: empty data passes for elements of four
bytes, and for an image of the frame, and an accumulator of that size holds two empty images. -/
theorem sizes_not_exact_square :
    ((⟨.empty, [2147483648, 2147483648], 4⟩ : BufferView).validate = .ok () ∧
      BufferView.bytes [2147483648, 2147483648] 4 = 2 ^ 64) ∧
    ((⟨.empty, [2147483648, 2147483648], 16⟩ : BufferView).checkFor
        (.ofSize 2147483648 2147483648) = .ok () ∧
      (Uniforms.ofSize 2147483648 2147483648).pixelCount = 2 ^ 62) ∧
    ∃ acc, Accumulator.new 2147483648 2147483648 = .ok acc ∧ acc.first.size = 0 ∧
      acc.second.size = 0 := by
  have hside : Binary32.Survives 2147483648 := .inl ⟨1, 31, by decide, rfl⟩
  have hdimensions := (Uniforms.dimensions_ofSize_iff 2147483648 2147483648).2 ⟨hside, hside⟩
  have hpixels : (Uniforms.ofSize 2147483648 2147483648).pixelCount = 2 ^ 62 := by
    rw [Uniforms.pixelCount, hdimensions]
    decide
  have hbytes : (Accumulator.imageBytes 2147483648 2147483648).toNat = 0 := by decide
  obtain ⟨acc, hnew⟩ := Accumulator.new_eq_ok_iff.2
    (show (2147483648 : UInt32) ≠ 0 ∧ (2147483648 : UInt32) ≠ 0 by decide)
  have hshows := Accumulator.shows_start hnew
  refine ⟨⟨by decide, by decide⟩, ⟨(Uniforms.checkFor_eq_ok_iff _).2 ⟨?_, rfl, ?_, ?_⟩, hpixels⟩,
    acc, hnew, (hshows.size_buffer 0).trans hbytes, (hshows.size_buffer 1).trans hbytes⟩
  · rw [hpixels]
    decide
  · rw [Uniforms.imageShape, hdimensions]
    rfl
  · rw [hpixels]
    rfl

end SphereTracer
