import Scaffold.Disk.Image
import Scaffold.Program

/-!
# The command line

Reads the machine that the program runs on from standard input, as an image, and writes its
disk to standard output after the run. What a failed run ends with is written to standard error.
-/

open Scaffold

/-- Runs the program on an image. -/
def main (args : List String) : IO UInt32 := do
  let text ← (← IO.getStdin).readToEnd
  match Image.ofText text with
  | none =>
    IO.eprintln "Error: the image cannot be read"
    return 2
  | some image =>
    let keys := image.keys.flatMap Terminal.Key.ofText
    let (ending, d) := Program.run image.env keys args { disk := image.disk }
    IO.print (Image.diskText d.disk)
    if let some message := ending.message? then IO.eprintln s!"Error: {message}"
    return ending.status.toUInt32
