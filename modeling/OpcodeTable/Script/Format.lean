import OpcodeTable.Script.Token

/-!
# Formatted output of scripts

Escapes in texts and formats, and the formatting of arguments. A format is used again as long as there are
arguments left that it takes.
-/

namespace OpcodeTable.Script

/-- The byte that an escape with one letter stands for. -/
def letterEscape? (c : Char) : Option Char :=
  if c == 'a' then some (Char.ofNat 7)
  else if c == 'b' then some (Char.ofNat 8)
  else if c == 't' then some (Char.ofNat 9)
  else if c == 'n' then some (Char.ofNat 10)
  else if c == 'v' then some (Char.ofNat 11)
  else if c == 'f' then some (Char.ofNat 12)
  else if c == 'r' then some (Char.ofNat 13)
  else if c == backslash then some backslash
  else none

def isOctalDigit (c : Char) : Bool :=
  '0'.toNat ≤ c.toNat && c.toNat ≤ '7'.toNat

/-- The byte of at most some octal digits, and the rest. -/
def takeOctal (limit : Nat) (text : Bytes) : Char × Bytes :=
  let digits := (text.take limit).takeWhile isOctalDigit
  let value := digits.foldl (fun value digit => value * 8 + (digit.toNat - '0'.toNat)) 0
  (Char.ofNat (value % 256), text.drop digits.length)

/-- What a backslash before a text writes, and the rest of the text. An escape that is none stays. -/
def takeEscape (text : Bytes) : Bytes × Bytes :=
  match text with
  | [] => ([backslash], [])
  | c :: rest =>
      match letterEscape? c with
      | some byte => ([byte], rest)
      | none =>
          if isOctalDigit c then
            let (byte, later) := takeOctal 3 text
            ([byte], later)
          else
            ([backslash, c], rest)

/-- A text with its escapes written out, and whether it asks to stop the output. -/
def writeEscapes (fuel : Nat) (text : Bytes) : Bytes × Bool :=
  match fuel with
  | 0 => ([], false)
  | fuel + 1 =>
      match text with
      | [] => ([], false)
      | c :: rest =>
          if c == backslash then
            match rest with
            | 'c' :: _ => ([], true)
            | '0' :: later =>
                let (byte, after) := takeOctal 3 later
                let (written, stops) := writeEscapes fuel after
                (byte :: written, stops)
            | _ =>
                let (bytes, after) := takeEscape rest
                let (written, stops) := writeEscapes fuel after
                (bytes ++ written, stops)
          else
            let (written, stops) := writeEscapes fuel rest
            (c :: written, stops)

/-- The digits of a number in a base up to sixteen. -/
def digitsOf (base : Nat) (value : Nat) : Bytes :=
  Nat.toDigits base value

/-- The number that a text spells, and whether all of it was used. -/
def readNumber (text : Bytes) : Int × Bool :=
  match text with
  | [] => (0, true)
  | c :: rest =>
      if c == singleQuote || c == doubleQuote then
        ((rest.head?.map fun d => (d.toNat : Int)).getD 0, true)
      else
        let negative := c == '-'
        let body := if c == '-' || c == '+' then rest else text
        let isHex := body.take 2 == ['0', 'x'] || body.take 2 == ['0', 'X']
        let isOctal := !isHex && body.head? == some '0'
        let base := if isHex then 16 else if isOctal then 8 else 10
        let digits := if isHex then body.drop 2 else body
        let digitValue (d : Char) : Nat :=
          if d.isDigit then d.toNat - '0'.toNat
          else if 'a'.toNat ≤ d.toNat && d.toNat ≤ 'f'.toNat then d.toNat - 'a'.toNat + 10
          else if 'A'.toNat ≤ d.toNat && d.toNat ≤ 'F'.toNat then d.toNat - 'A'.toNat + 10
          else 16
        let used := digits.takeWhile fun d => decide (digitValue d < base)
        let value := used.foldl (fun value d => value * base + digitValue d) 0
        (if negative then -(value : Int) else value, used.length == digits.length && !used.isEmpty)

/-- How an argument is set. The precision is the most bytes of a text, or the least digits of a number. -/
structure FieldFormat where
  left : Bool := false
  zeros : Bool := false
  plus : Bool := false
  blank : Bool := false
  showBase : Bool := false
  width : Nat := 0
  precision : Option Nat := none
deriving DecidableEq, Repr

/-- Fill a text up to the width. -/
def FieldFormat.fill (format : FieldFormat) (text : Bytes) : Bytes :=
  let missing := List.replicate (format.width - text.length) ' '
  if format.left then text ++ missing else missing ++ text

/-- Set a sign and digits. -/
def FieldFormat.number (format : FieldFormat) (sign digits : Bytes) : Bytes :=
  let digits := List.replicate (format.precision.getD 1 - digits.length) '0' ++ digits
  if format.zeros && !format.left && format.precision.isNone then
    sign ++ List.replicate (format.width - sign.length - digits.length) '0' ++ digits
  else
    format.fill (sign ++ digits)

def readFlags : FieldFormat → Bytes → FieldFormat × Bytes
  | format, [] => (format, [])
  | format, c :: rest =>
      if c == '-' then readFlags { format with left := true } rest
      else if c == '0' then readFlags { format with zeros := true } rest
      else if c == '+' then readFlags { format with plus := true } rest
      else if c == ' ' then readFlags { format with blank := true } rest
      else if c == '#' then readFlags { format with showBase := true } rest
      else (format, c :: rest)

/-- What formatting has done so far. -/
structure Printing where
  written : Bytes := []
  arguments : List Bytes
  asked : Bool := false
  stopped : Bool := false
  faults : List Bytes := []
deriving DecidableEq, Repr

def Printing.next (printing : Printing) : Option Bytes × Printing :=
  match printing.arguments with
  | [] => (none, { printing with asked := true })
  | argument :: rest => (some argument, { printing with arguments := rest, asked := true })

def Printing.write (printing : Printing) (bytes : Bytes) : Printing :=
  { printing with written := printing.written ++ bytes }

/-- Stop at a conversion that is none. -/
def Printing.refuse (printing : Printing) (directive : Bytes) : Printing :=
  { printing with
    stopped := true
    faults := printing.faults ++ [directive ++ ": invalid directive".toList] }

/-- A number as a word of 64 bits. -/
def wordOf (value : Int) : Nat :=
  (value % 18446744073709551616).toNat

/-- Write the next argument as a conversion asks. Nothing is returned for an unknown conversion. -/
def Printing.convert (printing : Printing) (format : FieldFormat) (conversion : Char) : Option Printing :=
  let (argument?, after) := printing.next
  let argument := argument?.getD []
  let cut (text : Bytes) : Bytes :=
    match format.precision with
    | some count => text.take count
    | none => text
  let (value, whole) := readNumber argument
  let noted := if whole then after else { after with faults := after.faults ++ [argument ++ ": expected numeric value".toList] }
  if conversion == 's' then
    some (after.write (format.fill (cut argument)))
  else if conversion == 'c' then
    some (after.write (format.fill (argument.take 1)))
  else if conversion == 'b' then
    let (text, stops) := writeEscapes (argument.length + 1) argument
    some { after.write (format.fill (cut text)) with stopped := stops }
  else if conversion == 'd' || conversion == 'i' then
    let sign := if value < 0 then ['-'] else if format.plus then ['+'] else if format.blank then [' '] else []
    some (noted.write (format.number sign (digitsOf 10 value.natAbs)))
  else if conversion == 'u' then
    some (noted.write (format.number [] (digitsOf 10 (wordOf value))))
  else if conversion == 'o' then
    some (noted.write (format.number (if format.showBase then ['0'] else []) (digitsOf 8 (wordOf value))))
  else if conversion == 'x' then
    some (noted.write (format.number (if format.showBase then ['0', 'x'] else [])
      (digitsOf 16 (wordOf value))))
  else if conversion == 'X' then
    some (noted.write (format.number (if format.showBase then ['0', 'X'] else [])
      ((digitsOf 16 (wordOf value)).map Char.toUpper)))
  else
    none

/-- Write a format once. -/
def Printing.once (fuel : Nat) (printing : Printing) (format : Bytes) : Printing :=
  match fuel with
  | 0 => printing
  | fuel + 1 =>
      if printing.stopped then
        printing
      else
        match format with
        | [] => printing
        | c :: rest =>
            if c == backslash then
              let (bytes, later) := takeEscape rest
              Printing.once fuel (printing.write bytes) later
            else if c == '%' then
              match rest with
              | '%' :: later => Printing.once fuel (printing.write ['%']) later
              | _ =>
                  let (field, later) := readFlags {} rest
                  let widthDigits := later.takeWhile Char.isDigit
                  let afterWidth := later.drop widthDigits.length
                  let (precision, conversionText) : Option Nat × Bytes :=
                    match afterWidth with
                    | '.' :: more =>
                        let digits := more.takeWhile Char.isDigit
                        (some (digitsValue digits), more.drop digits.length)
                    | _ => (none, afterWidth)
                  let field := { field with width := digitsValue widthDigits, precision := precision }
                  match conversionText with
                  | [] => printing.refuse format
                  | conversion :: more =>
                      match printing.convert field conversion with
                      | some after => Printing.once fuel after more
                      | none => printing.refuse (format.take (format.length - more.length))
            else
              Printing.once fuel (printing.write [c]) rest

/-- Write a format as often as there are arguments for it. -/
def Printing.all (fuel : Nat) (format : Bytes) (printing : Printing) : Printing :=
  match fuel with
  | 0 => printing
  | fuel + 1 =>
      let after := Printing.once (format.length + 1) { printing with asked := false } format
      if after.stopped || after.arguments.isEmpty || !after.asked then
        after
      else
        Printing.all fuel format after

/-- Write arguments by a format. -/
def printArguments (format : Bytes) (arguments : List Bytes) : Printing :=
  Printing.all (arguments.length + 1) format { arguments := arguments }

end OpcodeTable.Script
