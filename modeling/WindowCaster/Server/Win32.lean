import Mathlib.Algebra.Ring.Nat
import Mathlib.Data.Int.Notation
import WindowCaster.Foundation.Monitoring
import WindowCaster.Protocol.Messages

/-!
# The Windows functions that the server calls

Each call carries the arguments the server passes, and its answer the return value together with
whatever the function writes into the caller's buffers. Nothing is assumed about the answers here:
a run of a server function is a run against any behaviour of the system.
-/

namespace WindowCaster.Server.Win32

open Foundation.Interaction Foundation.Monitoring Foundation.Text

abbrev Hwnd := UInt64

abbrev Hdc := UInt64

abbrev Hbitmap := UInt64

/-- The null handle of any kind. -/
def nullptr : UInt64 := 0

/-- `none` is `INVALID_SOCKET`. -/
abbrev Socket := Option ℕ

/-- `static_cast<LONG>` and `static_cast<int>` of a `size_t`: the low 32 bits, as a signed number. -/
def toLong (value : UInt64) : Int32 := value.toInt64.toInt32

theorem toInt_toLong (value : UInt64) : (toLong value).toInt = (value.toNat : ℤ).bmod (2 ^ 32) := by
  have hsigned : value.toInt64.toInt = (value.toNat : ℤ).bmod (2 ^ 64) :=
    BitVec.toInt_eq_toNat_bmod value.toBitVec
  rw [toLong, Int64.toInt_toInt32, hsigned]
  exact Int.bmod_bmod_of_dvd (by decide)

/-- Among the values of a 32-bit field, those below `2 ^ 31` survive the cast. -/
theorem toInt_toLong_eq {value : UInt64} (h : value.toNat < 2 ^ 32) :
    (toLong value).toInt = value.toNat ↔ value.toNat < 2 ^ 31 := by
  rw [toInt_toLong, Int.bmod_def]
  split <;> omega

/-- Negation cannot overflow after a cast that kept a value. -/
theorem toInt_neg_toLong {value : UInt64} (h : value.toNat < 2 ^ 31) :
    (-toLong value).toInt = -(value.toNat : ℤ) := by
  have hfield : value.toNat < 2 ^ 32 := by omega
  have hcast := (toInt_toLong_eq hfield).2 h
  rw [Int32.toInt_neg, hcast, Int.bmod_def]
  split <;> omega

/-- The count a text function returns, and the units its buffer holds up to the terminating zero. -/
structure WindowText where
  count : ℕ
  units : List UInt16
  deriving DecidableEq

structure Rect where
  left : Int32
  top : Int32
  right : Int32
  bottom : Int32
  deriving DecidableEq

/-- The header of a `BITMAPINFO`; the defaults are those of `BITMAPINFO bmi = { 0 }`. -/
structure BitmapInfoHeader where
  biSize : UInt32 := 0
  biWidth : Int32 := 0
  biHeight : Int32 := 0
  biPlanes : UInt16 := 0
  biBitCount : UInt16 := 0
  biCompression : UInt32 := 0
  biSizeImage : UInt32 := 0
  biXPelsPerMeter : Int32 := 0
  biYPelsPerMeter : Int32 := 0
  biClrUsed : UInt32 := 0
  biClrImportant : UInt32 := 0
  deriving DecidableEq

/-- `BI_RGB` -/
def biRgb : UInt32 := 0

/-- The two windows that `SetWindowPos` is told to insert after. -/
inductive ZOrder
  | topmost
  | notopmost
  deriving DecidableEq

inductive Call
  | isWindow (hwnd : Hwnd)
  | isWindowVisible (hwnd : Hwnd)
  | getWindowText (hwnd : Hwnd) (maxCount : ℕ)
  | getClassName (hwnd : Hwnd) (maxCount : ℕ)
  | dwmGetWindowAttributeCloaked (hwnd : Hwnd)
  | enumWindows
  | wideCharToMultiByte (text : List UInt16) (size : ℕ)
  | getDC (hwnd : Hwnd)
  | releaseDC (hwnd : Hwnd) (dc : Hdc)
  | createCompatibleDC (dc : Hdc)
  | deleteDC (dc : Hdc)
  | createCompatibleBitmap (dc : Hdc) (width height : Int32)
  | selectObject (dc : Hdc) (bitmap : Hbitmap)
  | deleteObject (bitmap : Hbitmap)
  | getCurrentThreadId
  | getWindowThreadProcessId (hwnd : Hwnd)
  | attachThreadInput (idAttach idAttachTo : UInt32) (attach : Bool)
  | isIconic (hwnd : Hwnd)
  | showWindowRestore (hwnd : Hwnd)
  | setWindowPos (hwnd : Hwnd) (insertAfter : ZOrder)
  | setForegroundWindow (hwnd : Hwnd)
  | setDIBits (dc : Hdc) (bitmap : Hbitmap) (start lines : UInt32) (bits : Bytes)
      (bmiHeader : BitmapInfoHeader)
  | getClientRect (hwnd : Hwnd)
  | setStretchBltModeHalftone (dc : Hdc)
  | setBrushOrgEx (dc : Hdc) (x y : Int32)
  | stretchBlt (dcDest : Hdc) (xDest yDest widthDest heightDest : Int32)
      (dcSrc : Hdc) (xSrc ySrc widthSrc heightSrc : Int32)
  | getStockObjectBlackBrush
  | fillRect (dc : Hdc) (rect : Rect) (brush : UInt64)
  | send (socket : Socket) (buffer : Bytes) (length : Int32)
  deriving DecidableEq

/-- A function that fills a buffer answers with the contents of the buffer, also when it fails. The
cloaked attribute and the count of bytes sent are `none` when the call fails. -/
abbrev Call.Answer : Call → Type
  | .isWindow _ | .isWindowVisible _ => Bool
  | .getWindowText _ _ | .getClassName _ _ => WindowText
  | .dwmGetWindowAttributeCloaked _ => Option UInt32
  | .enumWindows => List Hwnd
  | .wideCharToMultiByte _ size => ℕ × { buffer : Bytes // buffer.length = size }
  | .getDC _ => Hdc
  | .releaseDC _ _ => Bool
  | .createCompatibleDC _ => Hdc
  | .deleteDC _ => Bool
  | .createCompatibleBitmap _ _ _ => Hbitmap
  | .selectObject _ _ => UInt64
  | .deleteObject _ => Bool
  | .getCurrentThreadId | .getWindowThreadProcessId _ => UInt32
  | .attachThreadInput _ _ _ | .isIconic _ | .showWindowRestore _ | .setWindowPos _ _
  | .setForegroundWindow _ => Bool
  | .setDIBits _ _ _ _ _ _ => UInt32
  | .getClientRect _ => Bool × Rect
  | .setStretchBltModeHalftone _ => Bool
  | .setBrushOrgEx _ _ _ => Bool
  | .stretchBlt _ _ _ _ _ _ _ _ _ _ => Bool
  | .getStockObjectBlackBrush => UInt64
  | .fillRect _ _ _ => Bool
  | .send _ _ _ => Option ℕ

abbrev Os : Interface := ⟨Call, Call.Answer⟩

/-- One call to the operating system. -/
def os (call : Call) : Program Os call.Answer := .perform (I := Os) call

/-! The type of an answer is only known once the call is, so it must not index the rules. -/

@[simp]
theorem runs_os {call : Call} {trace : List (Event Os)} {answer : call.Answer} :
    @Program.Runs Os (no_index call.Answer) (os call) trace answer ↔ trace = [⟨call, answer⟩] :=
  Program.runs_perform (I := Os)

@[simp]
theorem ensures_os {call : Call} {post : List (Event Os) → call.Answer → Prop} :
    @Program.Ensures Os (no_index call.Answer) (os call) post ↔
      ∀ answer, post [⟨call, answer⟩] answer :=
  Program.ensures_perform (I := Os)

@[simp]
theorem keeps_os {call : Call} {allowed : Event Os → Prop} :
    @Program.Keeps Os (no_index call.Answer) allowed (os call) ↔ ∀ answer, allowed ⟨call, answer⟩ :=
  Program.keeps_perform (I := Os)

theorem keeps_os_bind {call : Call} {α : Type} {allowed : Event Os → Prop}
    {after : call.Answer → Program Os α} (hcall : ∀ answer, allowed ⟨call, answer⟩)
    (hafter : ∀ answer, (after answer).Keeps allowed) : (os call >>= after).Keeps allowed :=
  Program.keeps_bind (keeps_os.2 hcall) hafter

@[simp]
theorem returns_os {call : Call} {allowed : Event Os → Prop} {post : call.Answer → Prop} :
    @Program.Returns Os (no_index call.Answer) allowed (os call) post ↔
      ∀ answer, allowed ⟨call, answer⟩ → post answer :=
  Program.returns_perform (I := Os)

theorem obeys_os_bind {call : Call} {Ghost α : Type} {allowed : Event Os → Prop}
    {monitor : Monitor Os Ghost} {ghost : Ghost} {after : call.Answer → Program Os α}
    {post : Ghost → α → Prop} (h : ∀ answer, allowed ⟨call, answer⟩ →
      ∃ next, monitor ghost ⟨call, answer⟩ = some next ∧
        (after answer).Obeys allowed monitor next post) :
    (os call >>= after).Obeys allowed monitor ghost post := by
  have hcall : (os call).Obeys allowed monitor ghost fun next answer ↦
      (after answer).Obeys allowed monitor next post := Program.obeys_perform (I := Os) h
  exact hcall.bind fun _ _ hafter ↦ hafter

/-! ## Documented behaviour -/

/-- What `WideCharToMultiByte` makes of a text and the zero behind it when it is given length -1. -/
def converted (text : List UInt16) : String := String.ofList (decodeUtf16 text ++ [Char.ofNat 0])

/-- What the documentation says about the calls that return text and lists: a text and its
zero fit into the buffer, a session has at most `2 ^ 16` window handles, and a conversion is asked
for the size it needs before it is carried out with a buffer of that size. -/
def Documented : Event Os → Prop
  | ⟨.getWindowText _ maxCount, answer⟩ => answer.units.length ≤ maxCount - 1
  | ⟨.getClassName _ maxCount, answer⟩ => answer.units.length ≤ maxCount - 1
  | ⟨.enumWindows, windows⟩ => windows.length ≤ 2 ^ 16
  | ⟨.wideCharToMultiByte text size, (count, buffer)⟩ =>
    (size = 0 → count = (utf8 (converted text)).length) ∧
      (size = (utf8 (converted text)).length → buffer.val = utf8 (converted text))
  | _ => True

/-- A system that grants every request. Runs against it show that runs with given properties exist. -/
def granting : (call : Call) → call.Answer
  | .isWindow _ | .isWindowVisible _ => true
  | .getWindowText _ maxCount | .getClassName _ maxCount => ⟨1, [87].take (maxCount - 1)⟩
  | .dwmGetWindowAttributeCloaked _ => none
  | .enumWindows => [1]
  | .wideCharToMultiByte text size =>
    ((utf8 (converted text)).length,
      if h : (utf8 (converted text)).length = size then ⟨utf8 (converted text), h⟩
      else ⟨List.replicate size 0, List.length_replicate⟩)
  | .getDC _ => 2
  | .releaseDC _ _ => true
  | .createCompatibleDC _ => 3
  | .deleteDC _ => true
  | .createCompatibleBitmap _ _ _ => 4
  | .selectObject _ _ => 5
  | .deleteObject _ => true
  | .getCurrentThreadId | .getWindowThreadProcessId _ => 1
  | .attachThreadInput _ _ _ | .showWindowRestore _ | .setWindowPos _ _
  | .setForegroundWindow _ => true
  | .isIconic _ => false
  | .setDIBits _ _ _ lines _ _ => lines
  | .getClientRect _ => (true, ⟨0, 0, 640, 480⟩)
  | .setStretchBltModeHalftone _ => true
  | .setBrushOrgEx _ _ _ => true
  | .stretchBlt _ _ _ _ _ _ _ _ _ _ => true
  | .getStockObjectBlackBrush => 6
  | .fillRect _ _ _ => true
  | .send _ buffer _ => some buffer.length

theorem documented_granting (call : Call) : Documented ⟨call, granting call⟩ := by
  cases call with
  | getWindowText hwnd maxCount | getClassName hwnd maxCount => exact List.length_take_le _ _
  | wideCharToMultiByte text size =>
    refine ⟨fun _ ↦ rfl, fun hsize ↦ ?_⟩
    exact congrArg Subtype.val (dif_pos hsize.symm)
  | enumWindows => simp [Documented, granting]
  | _ => trivial

theorem exists_documented (call : Call) : ∃ answer : call.Answer, Documented ⟨call, answer⟩ :=
  ⟨granting call, documented_granting call⟩

end WindowCaster.Server.Win32
