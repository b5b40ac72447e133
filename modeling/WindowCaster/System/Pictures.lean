import WindowCaster.Client.Requests
import WindowCaster.Server.PixelReads

/-!
# The picture from the client's buffer to the window's bitmap

The client sends packed rows of red, green, blue; the server hands the same bytes to `SetDIBits` as
a bitmap with 24 bits to a pixel, where a row is padded to four bytes and a pixel is blue, green,
red. The two readings agree only on pictures whose rows need no padding and, for colours, whose
pixels do not tell red from blue. A video frame has a third row length, the one its scaler chose.
-/

namespace WindowCaster.System.Pictures

open Foundation.Interaction Foundation.PixelLayout Foundation.Text
open Protocol.Messages Protocol.Readers Client.Requests
open Server.Win32 Server.Rendering Server.Handling Server.PixelReads

structure Rgb where
  red : UInt8
  green : UInt8
  blue : UInt8
  deriving DecidableEq

def rgb : UInt8 × UInt8 × UInt8 → Rgb
  | (red, green, blue) => ⟨red, green, blue⟩

def bgr : UInt8 × UInt8 × UInt8 → Rgb
  | (blue, green, red) => ⟨red, green, blue⟩

/-- Pixel `(x, y)` of the client's image. -/
def imagePixel (img : RgbImage) (x y : ℕ) : Option Rgb :=
  (tripleAt (3 * img.width.toNat) img.raw x y).map rgb

/-- The bytes that `SetDIBits` takes for pixel `(x, y)`: an uncompressed bitmap with 24 bits to a
pixel, whose negative height says that the rows run from the top down. -/
def dibTriple (read : PixelRead) (x y : ℕ) : Option (UInt8 × UInt8 × UInt8) :=
  if read.header.biBitCount = 24 ∧ read.header.biCompression = biRgb ∧
      read.header.biHeight.toInt < 0 ∧ (x : ℤ) < read.header.biWidth.toInt ∧
      (y : ℤ) < -read.header.biHeight.toInt ∧ y < read.lines.toNat then
    tripleAt (paddedRow read.header.biWidth.toInt.toNat) read.bits x y
  else none

/-- Pixel `(x, y)` of the bitmap after `SetDIBits`. -/
def dibPixel (read : PixelRead) (x y : ℕ) : Option Rgb := (dibTriple read x y).map bgr

/-- Every call of `SetDIBits` for a request gets the request's own content. -/
theorem eq_read_of_respond {codec : Codec} {server : WindowCasterServer} {bytes : Bytes}
    {targetWindow : UInt64} {content : Content} {trace : List (Event Os)}
    {result : Option Bytes × WindowCasterServer}
    (hparse : codec.parseFromString bytes =
      some ⟨some (.renderCommand ⟨targetWindow, some content⟩)⟩)
    (hruns : (server.respond codec bytes).Runs trace result) :
    ∀ read ∈ pixelReads trace, read = Content.read content := by
  rw [WindowCasterServer.respond, hparse] at hruns
  obtain ⟨first, second, value, rfl, hdispatch, rfl, -⟩ := Program.runs_bind.1 hruns
  rw [List.append_nil]
  obtain ⟨-, hnone, -⟩ | ⟨-, -, other, hother, hread⟩ :=
    ensures_handleRenderCommand _ _ _ _ hdispatch
  · simp [hnone]
  · obtain rfl := Option.some.inj hother
    simp [hread]

/-- A content of fewer than `2 ^ 31` rows and columns is read with the padded row length. -/
theorem dibTriple_read {content : Content} {x y : ℕ} (hx : x < content.width.toNat)
    (hy : y < content.height.toNat) (hwidth : content.width.toNat < 2 ^ 31)
    (hheight : content.height.toNat < 2 ^ 31) :
    dibTriple (Content.read content) x y =
      tripleAt (paddedRow content.width.toNat) content.data x y := by
  rw [← UInt32.toNat_toUInt64] at hwidth hheight
  have hbiWidth : (toLong content.width.toUInt64).toInt = content.width.toNat := by
    rw [(toInt_toLong_eq (by omega)).2 hwidth, UInt32.toNat_toUInt64]
  have hbiHeight : (-toLong content.height.toUInt64).toInt = -(content.height.toNat : ℤ) := by
    rw [toInt_neg_toLong hheight, UInt32.toNat_toUInt64]
  simp only [dibTriple, Content.read, Renderer.bmiHeader, hbiWidth, hbiHeight, Int.toNat_natCast]
  rw [if_pos]
  simp only [true_and]
  omega

/-- There is a run in which the pixels of the request are read. -/
theorem exists_read {codec : Codec} {bytes : Bytes} {targetWindow : UInt64} {content : Content}
    (hparse : codec.parseFromString bytes =
      some ⟨some (.renderCommand ⟨targetWindow, some content⟩)⟩)
    (hne : targetWindow ≠ nullptr) (server : WindowCasterServer) :
    ∃ trace result, (server.respond codec bytes).Runs trace result ∧
      Content.read content ∈ pixelReads trace := by
  obtain ⟨trace, result, hruns, hgranted⟩ := exists_granted (server.respond codec bytes)
  refine ⟨trace, result, hruns, ?_⟩
  rw [WindowCasterServer.respond, hparse] at hruns
  obtain ⟨first, second, value, rfl, hdispatch, rfl, -⟩ := Program.runs_bind.1 hruns
  rw [List.append_nil] at hgranted ⊢
  obtain ⟨hrefused, -⟩ | ⟨-, -, other, hother, hread⟩ :=
    ensures_handleRenderCommand _ _ _ _ hdispatch
  · simp [hne, hgranted] at hrefused
  · obtain rfl := Option.some.inj hother
    simp [hread]

/-! ## Images -/

theorem imagePixel_isSome {img : RgbImage} {x y : ℕ} (hx : x < img.width.toNat)
    (hy : y < img.height.toNat) : ∃ pixel, imagePixel img x y = some pixel := by
  have hrows : 3 * img.width.toNat * (y + 1) ≤ 3 * img.width.toNat * img.height.toNat :=
    Nat.mul_le_mul_left _ hy
  have hreach : 3 * img.width.toNat * y + 3 * x + 3 ≤ img.raw.length := by
    rw [img.length_raw]
    rw [Nat.mul_add, Nat.mul_one] at hrows
    omega
  obtain ⟨red, green, blue, h⟩ := exists_tripleAt x y hreach
  exact ⟨⟨red, green, blue⟩, by rw [imagePixel, h]; rfl⟩

/-- The rows and columns of an image are bounded by its bytes. -/
theorem size_le_length (img : RgbImage) (hwidth : 1 ≤ img.width.toNat)
    (hheight : 1 ≤ img.height.toNat) :
    img.width.toNat ≤ img.raw.length ∧ img.height.toNat ≤ img.raw.length := by
  have hw : img.width.toNat * 1 ≤ img.width.toNat * img.height.toNat :=
    Nat.mul_le_mul_left _ hheight
  have hh : 1 * img.height.toNat ≤ img.width.toNat * img.height.toNat :=
    Nat.mul_le_mul_right _ hwidth
  rw [img.length_raw, Nat.mul_assoc]
  omega

/-- The bitmap of an image that came through a request. -/
theorem dibPixel_read_image {codec : Codec} (hcodec : codec.Lawful) {hwnd : UInt64} {img : RgbImage}
    {bytes : Bytes} (hwrite : codec.writeToBytes (imageRenderRequest hwnd img) = some bytes)
    (hlength : bytes.length < 2 ^ 31) (hwidth : 1 ≤ img.width.toNat)
    (hheight : 1 ≤ img.height.toNat) (x y : ℕ) (hx : x < img.width.toNat)
    (hy : y < img.height.toNat) :
    dibPixel (Content.read (.image ⟨img.raw, img.width, img.height⟩)) x y =
      (tripleAt (paddedRow img.width.toNat) img.raw x y).map bgr := by
  have hraw : img.raw.length ≤ bytes.length := by
    rw [hcodec.length hwrite]
    exact length_data_le hwnd (.image ⟨img.raw, img.width, img.height⟩)
  obtain ⟨hcolumns, hrows⟩ := size_le_length img hwidth hheight
  rw [dibPixel, dibTriple_read hx hy (Nat.lt_of_le_of_lt (Nat.le_trans hcolumns hraw) hlength)
    (Nat.lt_of_le_of_lt (Nat.le_trans hrows hraw) hlength)]
  rfl

/-- Blue, green, red is the colour red, green, blue only when red equals blue. -/
theorem map_bgr_eq_map_rgb_iff (triple : Option (UInt8 × UInt8 × UInt8)) :
    triple.map bgr = triple.map rgb ↔ ∀ pixel, triple.map rgb = some pixel → pixel.red = pixel.blue := by
  rcases triple with _ | ⟨first, second, third⟩
  · simp
  · simp only [Option.map_some, Option.some.injEq, rgb, bgr, Rgb.mk.injEq, forall_eq']
    tauto

/-- For a request that `create_image_render_request` builds, the window's bitmap shows the client's
image exactly when the rows need no padding and no pixel tells red from blue. -/
theorem image_faithful_iff (codec : Codec) (hcodec : codec.Lawful) (hwnd : UInt64) (img : RgbImage)
    (hwidth : 1 ≤ img.width.toNat) (hheight : 1 ≤ img.height.toNat) (bytes : Bytes)
    (hrequest : createImageRenderRequest codec hwnd (some img) = some bytes)
    (hlength : bytes.length < 2 ^ 31) (server : WindowCasterServer) (trace : List (Event Os))
    (result : Option Bytes × WindowCasterServer)
    (hruns : (server.respond codec bytes).Runs trace result)
    (read : PixelRead) (hread : read ∈ pixelReads trace) :
    (∀ x y, x < img.width.toNat → y < img.height.toNat → dibPixel read x y = imagePixel img x y) ↔
      (4 ∣ img.width.toNat ∨ img.height.toNat = 1) ∧
        ∀ x y pixel, x < img.width.toNat → y < img.height.toNat →
          imagePixel img x y = some pixel → pixel.red = pixel.blue := by
  obtain rfl := eq_read_of_respond (hcodec.request hrequest hlength) hruns read hread
  have hdib := dibPixel_read_image hcodec hrequest hlength hwidth hheight
  constructor
  · intro h
    have hrows : 4 ∣ img.width.toNat ∨ img.height.toNat = 1 := by
      by_contra hnot
      rw [not_or, ← paddedRow_eq_iff] at hnot
      have hlonger := le_paddedRow img.width.toNat
      have hcolumn : img.width.toNat - 1 < img.width.toNat := by omega
      have hrow : img.height.toNat - 1 < img.height.toNat := by omega
      obtain ⟨pixel, hpixel⟩ := imagePixel_isSome hcolumn hrow
      rw [← h _ _ hcolumn hrow, hdib _ _ hcolumn hrow,
        tripleAt_last_eq_none hwidth (by omega) (by omega) img.length_raw] at hpixel
      cases hpixel
    refine ⟨hrows, fun x y pixel hx hy ↦ ?_⟩
    have hpixel := h x y hx hy
    rw [← paddedRow_eq_iff] at hrows
    rw [hdib x y hx hy, tripleAt_congr hrows hy] at hpixel
    exact (map_bgr_eq_map_rgb_iff _).1 hpixel pixel
  · rintro ⟨hrows, hgrey⟩ x y hx hy
    rw [← paddedRow_eq_iff] at hrows
    rw [hdib x y hx hy, tripleAt_congr hrows hy]
    exact (map_bgr_eq_map_rgb_iff _).2 fun pixel ↦ hgrey x y pixel hx hy

/-- An image of a single pixel. -/
def onePixel (colour : Rgb) : RgbImage := ⟨1, 1, [colour.red, colour.green, colour.blue], rfl⟩

/-- A small image has a request, and its pixels are read in some run. -/
theorem exists_read_image (img : RgbImage) (hsmall : 120 + img.raw.length < 2 ^ 31) :
    ∃ bytes trace result, createImageRenderRequest wire 1 (some img) = some bytes ∧
      bytes.length < 2 ^ 31 ∧ (WindowCasterServer.new.respond wire bytes).Runs trace result ∧
      Content.read (.image ⟨img.raw, img.width, img.height⟩) ∈ pixelReads trace := by
  obtain ⟨bytes, hwrite, hlength⟩ :=
    writeToBytes_renderRequest 1 (.image ⟨img.raw, img.width, img.height⟩) hsmall
  have hparse := wire_lawful.request hwrite hlength
  obtain ⟨trace, result, hruns, hread⟩ := exists_read hparse (by decide) .new
  exact ⟨bytes, trace, result, by rw [createImageRenderRequest_some]; exact hwrite, hlength, hruns,
    hread⟩

theorem image_faithful_grey :
    ∃ bytes trace result read,
      createImageRenderRequest wire 1 (some (onePixel ⟨7, 7, 7⟩)) = some bytes ∧
      (WindowCasterServer.new.respond wire bytes).Runs trace result ∧ read ∈ pixelReads trace ∧
      ∀ x y, x < 1 → y < 1 → dibPixel read x y = imagePixel (onePixel ⟨7, 7, 7⟩) x y := by
  obtain ⟨bytes, trace, result, hrequest, hlength, hruns, hread⟩ :=
    exists_read_image (onePixel ⟨7, 7, 7⟩) (by simp [onePixel])
  have hfaithful := image_faithful_iff wire wire_lawful 1 (onePixel ⟨7, 7, 7⟩) (by decide)
    (by decide) bytes hrequest hlength .new trace result hruns _ hread
  refine ⟨bytes, trace, result, _, hrequest, hruns, hread, hfaithful.2 ⟨.inr rfl, ?_⟩⟩
  intro x y pixel hx hy hpixel
  obtain rfl : x = 0 := Nat.lt_one_iff.1 hx
  obtain rfl : y = 0 := Nat.lt_one_iff.1 hy
  obtain rfl := Option.some.inj hpixel
  rfl

/-- A red pixel arrives as a blue one. -/
theorem image_not_faithful_red :
    ∃ bytes trace result read,
      createImageRenderRequest wire 1 (some (onePixel ⟨255, 0, 0⟩)) = some bytes ∧
      (WindowCasterServer.new.respond wire bytes).Runs trace result ∧ read ∈ pixelReads trace ∧
      imagePixel (onePixel ⟨255, 0, 0⟩) 0 0 = some ⟨255, 0, 0⟩ ∧
      dibPixel read 0 0 = some ⟨0, 0, 255⟩ := by
  obtain ⟨bytes, trace, result, hrequest, -, hruns, hread⟩ :=
    exists_read_image (onePixel ⟨255, 0, 0⟩) (by simp [onePixel])
  exact ⟨bytes, trace, result, _, hrequest, hruns, hread, rfl, rfl⟩

/-! ## Video frames -/

/-- A frame whose size fits into the fields is read with the padded row length. -/
theorem dibTriple_read_video {codec : Codec} (hcodec : codec.Lawful) {hwnd : UInt64}
    {frameData bytes : Bytes} {width height : UInt32} {stride : ℕ}
    (hwrite : codec.writeToBytes (videoFrameRequest hwnd frameData width height) = some bytes)
    (hlength : bytes.length < 2 ^ 31) (hdata : frameData.length = stride * height.toNat)
    (hheight : 1 ≤ height.toNat) (hstride : 3 * width.toNat ≤ stride)
    (x y : ℕ) (hx : x < width.toNat) (hy : y < height.toNat) :
    dibTriple (Content.read (.video ⟨frameData, width, height⟩)) x y =
      tripleAt (paddedRow width.toNat) frameData x y := by
  have hframe : stride * height.toNat ≤ bytes.length := by
    rw [hcodec.length hwrite, ← hdata]
    exact length_data_le hwnd (.video ⟨frameData, width, height⟩)
  have hcolumns : stride * 1 ≤ stride * height.toNat := Nat.mul_le_mul_left _ hheight
  have hrows : 1 * height.toNat ≤ stride * height.toNat := Nat.mul_le_mul_right _ (by omega)
  exact dibTriple_read hx hy (by simp only [Content.width]; omega)
    (by simp only [Content.height]; omega)

/-- The pixels of all frames with this size and stride are read where the scaler wrote them exactly
when the stride is the padded row length or there is a single row. -/
theorem video_geometry_iff (codec : Codec) (hcodec : codec.Lawful) (hwnd : UInt64)
    (hne : hwnd ≠ nullptr) (width height : UInt32) (stride : ℕ) (hwidth : 1 ≤ width.toNat)
    (hheight : 1 ≤ height.toNat) (hstride : 3 * width.toNat ≤ stride)
    (hwrites : ∀ frameData : Bytes, frameData.length = stride * height.toNat →
      ∃ bytes, createVideoFrameRequest codec hwnd frameData width height = some bytes ∧
        bytes.length < 2 ^ 31) :
    (∀ frameData bytes server trace result read, frameData.length = stride * height.toNat →
      createVideoFrameRequest codec hwnd frameData width height = some bytes →
      (WindowCasterServer.respond codec server bytes).Runs trace result → read ∈ pixelReads trace →
      ∀ x y, x < width.toNat → y < height.toNat →
        dibTriple read x y = tripleAt stride frameData x y) ↔
      stride = paddedRow width.toNat ∨ height.toNat = 1 := by
  constructor
  · intro h
    by_contra hnot
    rw [not_or] at hnot
    obtain ⟨frameData, hdata, hdiffer⟩ :=
      exists_tripleAt_ne (show 3 ≤ stride by omega) (show 2 ≤ height.toNat by omega) hnot.1
    obtain ⟨bytes, hwrite, hlength⟩ := hwrites frameData hdata
    obtain ⟨trace, result, hruns, hread⟩ := exists_read (hcodec.request hwrite hlength) hne .new
    apply hdiffer
    rw [← h frameData bytes .new trace result _ hdata hwrite hruns hread 0 1 (by omega) (by omega)]
    exact dibTriple_read_video hcodec hwrite hlength hdata hheight hstride 0 1 (by omega)
      (by omega)
  · intro hrows frameData bytes server trace result read hdata hwrite hruns hread x y hx hy
    obtain ⟨_, hwrite', hlength⟩ := hwrites frameData hdata
    obtain rfl := Option.some.inj (hwrite.symm.trans hwrite')
    obtain rfl := eq_read_of_respond (hcodec.request hwrite hlength) hruns read hread
    rw [dibTriple_read_video hcodec hwrite hlength hdata hheight hstride x y hx hy]
    exact (tripleAt_congr hrows hy frameData).symm

theorem video_geometry_two_rows :
    12 = paddedRow (4 : UInt32).toNat ∧
      ∀ frameData bytes server trace result read, frameData.length = 12 * (2 : UInt32).toNat →
        createVideoFrameRequest wire 1 frameData 4 2 = some bytes →
        (WindowCasterServer.respond wire server bytes).Runs trace result →
        read ∈ pixelReads trace → ∀ x y, x < (4 : UInt32).toNat → y < (2 : UInt32).toNat →
          dibTriple read x y = tripleAt 12 frameData x y := by
  have hwrites (frameData : Bytes) (hdata : frameData.length = 12 * (2 : UInt32).toNat) :
      ∃ bytes, createVideoFrameRequest wire 1 frameData 4 2 = some bytes ∧
        bytes.length < 2 ^ 31 :=
    writeToBytes_renderRequest 1 (.video ⟨frameData, 4, 2⟩) (by simp [Content.data, hdata])
  refine ⟨rfl, ?_⟩
  exact (video_geometry_iff wire wire_lawful 1 (by decide) 4 2 12 (by decide) (by decide)
    (by decide) hwrites).2 (.inl rfl)

/-- A frame of one column and two rows whose rows are 32 bytes apart: the second row is read from
the padding of the first. -/
theorem video_not_aligned :
    ∃ frameData bytes trace result read, frameData.length = 32 * 2 ∧
      createVideoFrameRequest wire 1 frameData 1 2 = some bytes ∧
      (WindowCasterServer.new.respond wire bytes).Runs trace result ∧ read ∈ pixelReads trace ∧
      tripleAt 32 frameData 0 1 = some (9, 9, 9) ∧ dibTriple read 0 1 = some (0, 0, 0) := by
  let frameData : Bytes := List.replicate 32 0 ++ List.replicate 32 9
  obtain ⟨bytes, hwrite, hlength⟩ := writeToBytes_renderRequest 1 (.video ⟨frameData, 1, 2⟩)
    (by simp [Content.data, frameData])
  obtain ⟨trace, result, hruns, hread⟩ :=
    exists_read (wire_lawful.request hwrite hlength) (by decide) .new
  have hpixel : dibTriple (Content.read (.video ⟨frameData, 1, 2⟩)) 0 1 =
      tripleAt (paddedRow 1) frameData 0 1 :=
    dibTriple_read (by decide) (by decide) (by decide) (by decide)
  exact ⟨frameData, bytes, trace, result, _, rfl, hwrite, hruns, hread, rfl, hpixel⟩

end WindowCaster.System.Pictures
