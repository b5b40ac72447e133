import Mathlib.Data.List.Basic
import WindowCaster.Foundation.Text

/-!
# Rows of three-byte pixels

A picture in memory is a sequence of rows that begin one stride apart, with three bytes to a pixel.
A device-independent bitmap pads its rows to a multiple of four bytes. Two strides give the same
picture only if they are equal or there is a single row.
-/

namespace WindowCaster.Foundation.PixelLayout

open Text (Bytes)

/-- The stride of a bitmap with 24 bits to a pixel. -/
def paddedRow (width : ℕ) : ℕ := 4 * ((3 * width + 3) / 4)

theorem le_paddedRow (width : ℕ) : 3 * width ≤ paddedRow width := by
  rw [paddedRow]
  omega

theorem paddedRow_eq_iff {width : ℕ} : paddedRow width = 3 * width ↔ 4 ∣ width := by
  rw [paddedRow]
  omega

/-- The three bytes of the pixel in column `x` of row `y`, if the data reaches so far. -/
def tripleAt (stride : ℕ) (data : Bytes) (x y : ℕ) : Option (UInt8 × UInt8 × UInt8) :=
  match data[stride * y + 3 * x]?, data[stride * y + 3 * x + 1]?, data[stride * y + 3 * x + 2]? with
  | some first, some second, some third => some (first, second, third)
  | _, _, _ => none

theorem tripleAt_eq_some {stride x y : ℕ} {data : Bytes} {first second third : UInt8} :
    tripleAt stride data x y = some (first, second, third) ↔
      data[stride * y + 3 * x]? = some first ∧ data[stride * y + 3 * x + 1]? = some second ∧
        data[stride * y + 3 * x + 2]? = some third := by
  unfold tripleAt
  split <;> simp_all

theorem tripleAt_eq_none {stride x y : ℕ} {data : Bytes}
    (h : data.length < stride * y + 3 * x + 3) : tripleAt stride data x y = none := by
  have hthird : data[stride * y + 3 * x + 2]? = none := List.getElem?_eq_none (by omega)
  unfold tripleAt
  split <;> simp_all

theorem exists_tripleAt {stride : ℕ} {data : Bytes} (x y : ℕ)
    (h : stride * y + 3 * x + 3 ≤ data.length) :
    ∃ first second third, tripleAt stride data x y = some (first, second, third) :=
  ⟨_, _, _, tripleAt_eq_some.2 ⟨List.getElem?_eq_getElem (by omega),
    List.getElem?_eq_getElem (by omega), List.getElem?_eq_getElem (by omega)⟩⟩

/-- In the first row the stride does not matter. -/
theorem tripleAt_row_zero (stride stride' : ℕ) (data : Bytes) (x : ℕ) :
    tripleAt stride data x 0 = tripleAt stride' data x 0 := by
  simp [tripleAt]

/-- Two strides that agree, or a single row, give the same picture. -/
theorem tripleAt_congr {stride stride' height x y : ℕ} (h : stride = stride' ∨ height = 1)
    (hy : y < height) (data : Bytes) : tripleAt stride data x y = tripleAt stride' data x y := by
  obtain rfl | rfl := h
  · rfl
  · obtain rfl : y = 0 := by omega
    exact tripleAt_row_zero stride stride' data x

/-- In packed data of at least two rows a longer stride puts the last pixel past the end. -/
theorem tripleAt_last_eq_none {stride width height : ℕ} {data : Bytes} (hwidth : 1 ≤ width)
    (hheight : 2 ≤ height) (hstride : 3 * width < stride) (hlength : data.length = 3 * width * height) :
    tripleAt stride data (width - 1) (height - 1) = none := by
  have hrows : (3 * width + 1) * (height - 1) ≤ stride * (height - 1) := Nat.mul_le_mul_right _ hstride
  have hsplit : 3 * width * height = 3 * width * (height - 1) + 3 * width := by
    rw [← Nat.mul_succ, Nat.succ_eq_add_one, Nat.sub_add_cancel (by omega)]
  rw [Nat.add_mul, Nat.one_mul] at hrows
  exact tripleAt_eq_none (by omega)

/-- With a second row, data that differs from its surroundings where that row begins tells two
strides apart. -/
theorem exists_tripleAt_ne {stride stride' height : ℕ} (hstride : 3 ≤ stride) (hheight : 2 ≤ height)
    (hne : stride ≠ stride') :
    ∃ data : Bytes, data.length = stride * height ∧
      tripleAt stride data 0 1 ≠ tripleAt stride' data 0 1 := by
  have hlength : stride * 2 ≤ stride * height := Nat.mul_le_mul_left stride hheight
  let marked : Bytes := (List.replicate (stride * height) 0).set stride 1
  have hmarked : marked[stride]? = some 1 := List.getElem?_set_self (by simp; omega)
  have hother : marked[stride']? ≠ some 1 := by
    rw [List.getElem?_set_ne hne, List.getElem?_replicate]
    split <;> simp
  have hreach : stride * 1 + 3 * 0 + 3 ≤ marked.length := by
    simp only [marked, List.length_set, List.length_replicate]
    omega
  obtain ⟨first, second, third, hread⟩ := exists_tripleAt 0 1 hreach
  refine ⟨marked, by simp [marked], fun heq ↦ hother ?_⟩
  have hfirst := (tripleAt_eq_some.1 hread).1
  rw [heq, tripleAt_eq_some] at hread
  rw [Nat.mul_one, Nat.mul_zero, Nat.add_zero] at hfirst hread
  rw [hread.1, ← hfirst, hmarked]

end WindowCaster.Foundation.PixelLayout
