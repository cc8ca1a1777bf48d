/-!
# UTF-8

Texts become bytes and bytes become texts. Bytes that are no UTF-8 can be read all the same: every longest
start of a character that breaks off, and every byte that cannot start one, becomes one replacement
character.
-/

namespace OpcodeTable.Text

/-- The bytes of a text. -/
def utf8 (text : String) : List UInt8 :=
  text.toList.flatMap String.utf8EncodeChar

/-- The character that stands for bytes that are none. -/
def replacement : Char := Char.ofNat 0xFFFD

/-- The byte can continue a character. -/
def isContinuation (byte : Nat) : Bool :=
  0x80 ≤ byte && byte ≤ 0xBF

/-- The byte can follow the first byte of a character of three bytes. -/
def followsThree (first second : Nat) : Bool :=
  (if first = 0xE0 then 0xA0 ≤ second else 0x80 ≤ second) &&
    (if first = 0xED then second ≤ 0x9F else second ≤ 0xBF)

/-- The byte can follow the first byte of a character of four bytes. -/
def followsFour (first second : Nat) : Bool :=
  (if first = 0xF0 then 0x90 ≤ second else 0x80 ≤ second) &&
    (if first = 0xF4 then second ≤ 0x8F else second ≤ 0xBF)

/-- The number of bytes of the character or of the broken start that opens a list of bytes, and whether it
is a whole character. The count is that of the bytes after the first. -/
def sequenceTail (first : Nat) (rest : List Nat) : Nat × Bool :=
  if first < 0x80 then
    (0, true)
  else if 0xC2 ≤ first && first ≤ 0xDF then
    match rest with
    | second :: _ => if isContinuation second then (1, true) else (0, false)
    | [] => (0, false)
  else if 0xE0 ≤ first && first ≤ 0xEF then
    match rest with
    | second :: third :: _ =>
        if followsThree first second then
          if isContinuation third then (2, true) else (1, false)
        else
          (0, false)
    | [second] => if followsThree first second then (1, false) else (0, false)
    | [] => (0, false)
  else if 0xF0 ≤ first && first ≤ 0xF4 then
    match rest with
    | second :: third :: fourth :: _ =>
        if followsFour first second then
          if isContinuation third then
            if isContinuation fourth then (3, true) else (2, false)
          else
            (1, false)
        else
          (0, false)
    | [second, third] =>
        if followsFour first second then
          if isContinuation third then (2, false) else (1, false)
        else
          (0, false)
    | [second] => if followsFour first second then (1, false) else (0, false)
    | [] => (0, false)
  else
    (0, false)

/-- The number that the first byte of a character carries. -/
def leadValue (first : Nat) : Nat :=
  if first < 0x80 then first
  else if first < 0xE0 then first - 0xC0
  else if first < 0xF0 then first - 0xE0
  else first - 0xF0

/-- The character of a first byte and the bytes that continue it. -/
def assembleChar (first : Nat) (continuations : List Nat) : Char :=
  Char.ofNat (continuations.foldl (fun value byte => value * 0x40 + (byte - 0x80)) (leadValue first))

/-- The characters of bytes given as numbers. -/
def decodeBytes : List Nat → List Char
  | [] => []
  | first :: rest =>
      let (count, whole) := sequenceTail first rest
      (if whole then assembleChar first (rest.take count) else replacement) ::
        decodeBytes (rest.drop count)
termination_by bytes => bytes.length
decreasing_by
  simp only [List.length_drop, List.length_cons]
  omega

/-- The text of bytes. -/
def decodeLossy (bytes : List UInt8) : String :=
  String.ofList (decodeBytes (bytes.map UInt8.toNat))

/-- The text of bytes that are UTF-8 throughout. -/
def decode? (bytes : List UInt8) : Option String :=
  let text := decodeLossy bytes
  if utf8 text = bytes then some text else none

end OpcodeTable.Text
