/-!
# Prefix bytes

Eleven bytes may stand before an opcode. A set of them has one fixed order, so two sets with the same
members are equal.
-/

namespace OpcodeTable

/-- A byte that may stand before an opcode. -/
inductive PrefixByte where
  | operandSize | addressSize | lock | repne | rep | cs | ss | ds | es | fs | gs
deriving DecidableEq, Hashable, Repr

namespace PrefixByte

/-- Every prefix byte, in the order in which sets list them. -/
def all : List PrefixByte :=
  [.operandSize, .addressSize, .lock, .repne, .rep, .cs, .ss, .ds, .es, .fs, .gs]

@[simp]
theorem mem_all (byte : PrefixByte) : byte ∈ all := by
  cases byte <;> decide

def byte : PrefixByte → UInt8
  | .operandSize => 0x66
  | .addressSize => 0x67
  | .lock => 0xF0
  | .repne => 0xF2
  | .rep => 0xF3
  | .cs => 0x2E
  | .ss => 0x36
  | .ds => 0x3E
  | .es => 0x26
  | .fs => 0x64
  | .gs => 0x65

/-- The prefix that a byte stands for. -/
def ofByte? (byte : UInt8) : Option PrefixByte :=
  all.find? fun candidate => candidate.byte == byte

/-- Number of a segment override or branch hint. -/
def segmentCode? : PrefixByte → Option Nat
  | .es => some 1
  | .cs => some 2
  | .ss => some 3
  | .ds => some 4
  | .fs => some 5
  | .gs => some 6
  | _ => none

/-- Number of a lock or repeat prefix. -/
def repeatCode? : PrefixByte → Option Nat
  | .lock => some 1
  | .repne => some 2
  | .rep => some 3
  | _ => none

end PrefixByte

/-- A set of prefix bytes, listed in the order of `PrefixByte.all`. -/
structure PrefixSet where
  members : List PrefixByte
  canonical : PrefixByte.all.filter (members.contains ·) = members
deriving DecidableEq, Repr

namespace PrefixSet

/-- The set with no members. -/
def empty : PrefixSet :=
  ⟨[], by simp⟩

instance : Inhabited PrefixSet :=
  ⟨empty⟩

instance : Membership PrefixByte PrefixSet :=
  ⟨fun set byte => byte ∈ set.members⟩

/-- The byte is in the set. -/
def contains (set : PrefixSet) (byte : PrefixByte) : Bool :=
  set.members.contains byte

/-- The set has no members. -/
def isEmpty (set : PrefixSet) : Bool :=
  set.members.isEmpty

/-- The set of all bytes of a class. -/
def ofPredicate (holds : PrefixByte → Bool) : PrefixSet :=
  ⟨PrefixByte.all.filter holds, by
    apply List.filter_congr
    intro byte _
    rw [List.contains_eq_mem, Bool.eq_iff_iff]
    simp⟩

/-- The set with one more member. -/
def insert (set : PrefixSet) (byte : PrefixByte) : PrefixSet :=
  ofPredicate fun candidate => candidate == byte || set.contains candidate

@[simp]
theorem contains_ofPredicate (holds : PrefixByte → Bool) (byte : PrefixByte) :
    (ofPredicate holds).contains byte = holds byte := by
  rw [contains, ofPredicate, List.contains_eq_mem, Bool.eq_iff_iff]
  simp

@[simp]
theorem contains_insert (set : PrefixSet) (added byte : PrefixByte) :
    (set.insert added).contains byte = (byte == added || set.contains byte) := by
  simp [insert]

end PrefixSet

end OpcodeTable
