import WindowCaster.Client.Video

/-!
# The client's three commands

`main` connects and then carries out one command. Reading the window handle and the image file from
the arguments may fail; what comes of them is a parameter here, and `WindowHandles` reads the handle.
The lines that go to the console are left out; `Console` adds them.
-/

namespace WindowCaster.Client.Main

open Foundation.Interaction Foundation.Text Protocol.Messages Protocol.Readers
open Network Requests Video

/-- The client's own list of windows. -/
structure WindowManager where
  windows : List (WindowInfo String)
  deriving DecidableEq

namespace WindowManager

def new : WindowManager := ⟨[]⟩

def updateWindows (manager : WindowManager) (windows : List (WindowInfo String)) : WindowManager :=
  { manager with windows }

end WindowManager

/-- `hwnd` is what `from_str_radix` makes of the argument, `opened` what `image::open` makes of the
file, and `input` what FFmpeg makes of it, if it can be opened. -/
inductive Command (Packet Frame : Type)
  | list
  | image (hwnd : Option UInt64) (opened : Option RgbImage)
  | video (hwnd : Option UInt64) (input : Option (Input Packet Frame))

variable {Packet Frame : Type}

section Code

variable (codec : Codec) (client : NetworkClient)

/-- `Commands::List`; a window list in the answer replaces the list the client keeps. -/
def runList (windowManager : WindowManager) : Program Tcp (Option WindowManager) :=
  match createGetWindowListRequest codec with
  | none => pure none
  | some request => do
    match ← exchange codec client request with
    | none => pure none
    | some resp =>
      match resp.windowList with
      | some windowListMsg => pure (some (windowManager.updateWindows windowListMsg.windows))
      | none => pure (some windowManager)

/-- `Commands::Image` -/
def runImage (hwnd : Option UInt64) (opened : Option RgbImage) : Program Tcp Bool :=
  match hwnd with
  | none => pure false
  | some hwnd =>
    match createImageRenderRequest codec hwnd opened with
    | none => pure false
    | some request => do
      let response ← exchange codec client request
      return response.isSome

/-- `Commands::Video` -/
def runVideo (hwnd : Option UInt64) (input : Option (Input Packet Frame)) : Program Tcp Bool :=
  match hwnd with
  | none => pure false
  | some hwnd =>
    match input with
    | none => pure false
    | some input => renderVideo codec client hwnd input

/-- `main` after `connect` -/
def main : Command Packet Frame → Program Tcp Bool
  | .list => do
    let listed ← runList codec client .new
    return listed.isSome
  | .image hwnd opened => runImage codec client hwnd opened
  | .video hwnd input => runVideo codec client hwnd input

end Code

end WindowCaster.Client.Main
