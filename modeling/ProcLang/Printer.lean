/-! # Printers

Where the lines go that a program prints: to the console, or into a buffer from which they can be
read back.
-/

namespace ProcLang

set_option autoImplicit false

inductive Destination where
  | console
  | buffer
deriving DecidableEq, Repr

structure Printer where
  destination : Destination
  /-- What was printed, each line with its line feed. -/
  text : String := ""
deriving DecidableEq, Repr

namespace Printer

def printLine (printer : Printer) (line : String) : Printer :=
  { printer with text := printer.text ++ line ++ "\n" }

/-- What a buffer holds; nothing can be read back from the console. -/
def output (printer : Printer) : String :=
  match printer.destination with
  | .console => ""
  | .buffer => printer.text

/-- What appeared on the console. -/
def consoleText (printer : Printer) : String :=
  match printer.destination with
  | .console => printer.text
  | .buffer => ""

def clear (printer : Printer) : Printer :=
  match printer.destination with
  | .console => printer
  | .buffer => { printer with text := "" }

end Printer

end ProcLang
