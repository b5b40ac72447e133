import WindowCaster.Client.Network
import WindowCaster.Protocol.Readers

/-!
# The client's requests

`Protocol` builds the three requests the client sends. Opening an image file and writing a message
to bytes are left to libraries; what they return is a parameter here. A request whose answer matters
is sent, and the next message on the connection is taken for the answer.
-/

namespace WindowCaster.Client.Requests

open Foundation.Interaction Foundation.LengthFraming Foundation.Text
open Protocol.Messages Protocol.Readers Network

/-- An image after `to_rgb8`: three bytes to a pixel, rows from the top down, no padding. -/
structure RgbImage where
  width : UInt32
  height : UInt32
  raw : Bytes
  length_raw : raw.length = 3 * width.toNat * height.toNat

def imageRenderRequest (hwnd : UInt64) (img : RgbImage) : ClientRequest :=
  ⟨some (.renderCommand ⟨hwnd, some (.image ⟨img.raw, img.width, img.height⟩)⟩)⟩

def videoFrameRequest (hwnd : UInt64) (frameData : Bytes) (width height : UInt32) : ClientRequest :=
  ⟨some (.renderCommand ⟨hwnd, some (.video ⟨frameData, width, height⟩)⟩)⟩

def createGetWindowListRequest (codec : Codec) : Option Bytes :=
  codec.writeToBytes ⟨some .getWindowList⟩

/-- `opened` is what `image::open` makes of the file. -/
def createImageRenderRequest (codec : Codec) (hwnd : UInt64) (opened : Option RgbImage) :
    Option Bytes := do
  let img ← opened
  codec.writeToBytes (imageRenderRequest hwnd img)

theorem createImageRenderRequest_some (codec : Codec) (hwnd : UInt64) (img : RgbImage) :
    createImageRenderRequest codec hwnd (some img) =
      codec.writeToBytes (imageRenderRequest hwnd img) := rfl

def createVideoFrameRequest (codec : Codec) (hwnd : UInt64) (frameData : Bytes)
    (width height : UInt32) : Option Bytes :=
  codec.writeToBytes (videoFrameRequest hwnd frameData width height)

def parseServerResponse (codec : Codec) (data : Bytes) : Option (ServerResponse String) :=
  codec.parseFromBytes data

/-- The three calls around a request whose answer matters: send it, read one message, parse it. -/
def exchange (codec : Codec) (client : NetworkClient) (request : Bytes) :
    Program Tcp (Option (ServerResponse String)) := do
  if ← client.sendMessage request then
    match ← client.receiveMessage with
    | none => pure none
    | some response => pure (parseServerResponse codec response)
  else pure none

/-- An exchange that succeeds has written its request and nothing else. -/
theorem written_of_exchange {codec : Codec} {client : NetworkClient} {request : Bytes}
    {trace : List (Event Tcp)} {response : ServerResponse String}
    (h : (exchange codec client request).Runs trace (some response)) :
    written trace = frame request := by
  obtain ⟨first, second, sent, rfl, hsend, hrest⟩ := Program.runs_bind.1 h
  cases sent with
  | false => simp at hrest
  | true =>
    obtain ⟨reading, done, message, rfl, hreceive, hdone⟩ := Program.runs_bind.1 hrest
    cases message with
    | none => simp at hdone
    | some message =>
      obtain ⟨rfl, -⟩ := Program.runs_pure.1 hdone
      rw [written_append, written_append, written_of_sendMessage hsend,
        written_of_receiveMessage hreceive]
      simp [written]

/-- An exchange that succeeds returns what the frame that it has read says. -/
theorem parse_of_exchange {codec : Codec} {client : NetworkClient} {request payload : Bytes}
    {trace : List (Event Tcp)} {response : ServerResponse String}
    (h : (exchange codec client request).Runs trace (some response))
    (htaken : taken trace = frame payload) : codec.parseFromBytes payload = some response := by
  obtain ⟨first, second, sent, rfl, hsend, hrest⟩ := Program.runs_bind.1 h
  cases sent with
  | false => simp at hrest
  | true =>
    obtain ⟨reading, done, message, rfl, hreceive, hdone⟩ := Program.runs_bind.1 hrest
    cases message with
    | none => simp at hdone
    | some message =>
      obtain ⟨rfl, hparse⟩ := Program.runs_pure.1 hdone
      rw [taken_append, List.append_nil, taken_of_sendMessage hsend, List.nil_append] at htaken
      rw [hparse, eq_of_receiveMessage hreceive htaken, parseServerResponse]

/-- An answer that parses ends an exchange. -/
theorem exists_runs_exchange {codec : Codec} {payload : Bytes} {response : ServerResponse String}
    (hparse : codec.parseFromBytes payload = some response) (hlength : payload.length < 2 ^ 32)
    (request : Bytes) : ∃ trace, (exchange codec ⟨true⟩ request).Runs trace (some response) ∧
      taken trace = frame payload := by
  obtain ⟨first, hfirst⟩ := exists_runs_sendMessage request
  obtain ⟨second, hsecond, htaken⟩ := exists_runs_receiveMessage hlength
  refine ⟨_, Program.runs_bind.2 ⟨first, second, true, rfl, hfirst, ?_⟩, ?_⟩
  · exact Program.runs_bind.2 ⟨second, [], _, by simp, hsecond, rfl, hparse.symm⟩
  · rw [taken_append, taken_of_sendMessage hfirst, htaken, List.nil_append]

end WindowCaster.Client.Requests
