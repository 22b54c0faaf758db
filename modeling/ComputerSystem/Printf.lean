import ComputerSystem.CString
import ComputerSystem.Word

/-!
# Formatted output

`itoa` and the scan of `printf`.  The format is the memory from its pointer on, and what `printf`
gives is the bytes that reach `putc` and its return value.
-/

namespace ComputerSystem

open CString Word

/-- The bytes of a text. -/
def bytes (s : String) : List UInt8 := s.toList.map fun c => c.toNat.toUInt8

/-- The digits of `itoa`. -/
def lookup : List UInt8 := bytes "0123456789ABCDEFGHIJKLMNOPQRSTUVWXYZ"

/-- The loop of `itoa`, lowest place first.  A 32-bit value has at most 32 places. -/
def itoa_loop (radix : Nat) : Nat → Nat → List UInt8
  | 0, _ => []
  | places + 1, newval =>
      if newval > 0 then lookup.getD (newval % radix) 0 :: itoa_loop radix places (newval / radix)
      else []

/-- `itoa`: the string it leaves in the buffer. -/
def itoa (value radix : Nat) : List UInt8 :=
  if value = 0 then [48] else (itoa_loop radix 32 value).reverse

/-- A word on the stack of `printf`, with the memory it points to. -/
structure Argument where
  /-- The word. -/
  word : Nat
  /-- Memory from there on. -/
  memory : List UInt8

/-- An argument that is not followed. -/
def Argument.ofWord (word : Nat) : Argument := ⟨word, []⟩

/-- The text of `%x`, with the zeros of `%#x` in front. -/
def hexadecimal (alternate : Bool) (word : Nat) : List UInt8 :=
  let digits := itoa word 16
  if alternate then List.replicate (8 - digits.length) 48 ++ digits else digits

/-- The text of `%d`. -/
def decimal (word : Nat) : List UInt8 :=
  if toSigned word < 0 then 45 :: itoa (toUnsigned (-toSigned word)) 10 else itoa word 10

/-- The scan of `printf`: the bytes of the format it passes and the text it prints.  Behind a `%`
the state is `some alternate`; whatever stands there, a NUL as well, is passed. -/
def printf_scan : Option Bool → List UInt8 → List Argument → Nat × List UInt8
  | none, [], _ => (0, [])
  | some _, [], _ => (1, [])
  | none, c :: format, args =>
      if c = 0 then (0, [])
      else if c = 37 then                                    -- %
        let (passed, text) := printf_scan (some false) format args
        (passed + 1, text)
      else
        let (passed, text) := printf_scan none format args
        (passed + 1, c :: text)
  | some alternate, c :: format, args =>
      let arg := args.headD (.ofWord 0)
      if c = 35 then                                         -- #
        let (passed, text) := printf_scan (some true) format args
        (passed + 1, text)
      else
        let (printed, args) : List UInt8 × List Argument :=
          if c = 37 then ([37], args)                        -- %
          else if c = 120 then (hexadecimal alternate arg.word, args.tail)  -- x
          else if c = 117 then (itoa arg.word 10, args.tail)  -- u
          else if c = 100 then (decimal arg.word, args.tail)  -- d
          else if c = 99 then ([arg.word.toUInt8], args.tail)  -- c
          else if c = 115 then (text arg.memory, args.tail)  -- s
          else ([], args)
        let (passed, text) := printf_scan none format args
        (passed + 1, printed ++ text)

/-- `printf`: its return value and the bytes that reach `putc`. -/
def printf (format : String) (args : List Argument) : Nat × List UInt8 :=
  printf_scan none (bytes format) args

end ComputerSystem
