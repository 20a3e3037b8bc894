import Mathlib.Data.Int.Notation
import Mathlib.Data.List.Basic

/-!
# YAML documents as trees

A loaded document is a tree of nodes.  Subscripting and conversion follow the
rules of the yaml-cpp headers: a key of a map may be undefined, subscripting a
scalar throws, and so does converting a node which is not of the wanted kind.
Keys of a map which are not scalars match no string and are left out.
-/

namespace Yaml

inductive Exn
  | badFile
  | badSubscript
  | invalidNode
  | badConversion
  deriving DecidableEq, Repr

/-- A node of a loaded document.  An undefined node is the absence of one. -/
inductive Node
  | null
  | scalar (text : String)
  | seq (items : List Node)
  | map (fields : List (String × Node))

/-- `node[key]` for a string key; `none` is an undefined node. -/
def Node.sub : Node → String → Except Exn (Option Node)
  | .scalar _, _ => .error .badSubscript
  | .map fields, key => .ok (fields.lookup key)
  | .null, _ => .ok none
  | .seq _, _ => .ok none

def Node.isScalar : Node → Bool
  | .scalar _ => true
  | _ => false

def Node.asString : Node → Except Exn String
  | .null => .ok "null"
  | .scalar text => .ok text
  | .seq _ => .error .badConversion
  | .map _ => .error .badConversion

/-! ## Integers

A stream whose base field is cleared reads `0x` as hexadecimal, a leading `0`
as octal and anything else as decimal; after the digits only white space may
follow. -/

def digitValue (c : Char) : ℕ :=
  if c.isDigit then c.toNat - 48
  else if 'a' ≤ c ∧ c ≤ 'f' then c.toNat - 87
  else if 'A' ≤ c ∧ c ≤ 'F' then c.toNat - 55
  else 16

def readDigits (base : ℕ) (cs : List Char) : Option ℕ :=
  if cs.isEmpty || cs.any fun c => decide (base ≤ digitValue c) then none
  else some (cs.foldl (fun value c => base * value + digitValue c) 0)

def readNat : List Char → Option ℕ
  | '0' :: 'x' :: cs => readDigits 16 cs
  | '0' :: 'X' :: cs => readDigits 16 cs
  | '0' :: c :: cs => readDigits 8 (c :: cs)
  | cs => readDigits 10 cs

/-- What `std::ws` skips: also the vertical tab and the form feed. -/
def isSpace (c : Char) : Bool :=
  c.isWhitespace || c.toNat == 11 || c.toNat == 12

def trimEnd (cs : List Char) : List Char :=
  (cs.reverse.dropWhile isSpace).reverse

def readInt (text : String) : Option ℤ :=
  match trimEnd text.toList with
  | '-' :: cs => (readNat cs).map fun value => -(value : ℤ)
  | '+' :: cs => (readNat cs).map fun value => (value : ℤ)
  | cs => (readNat cs).map fun value => (value : ℤ)

def Node.asInt : Node → Except Exn ℤ
  | .scalar text =>
      match readInt text with
      | some value =>
          if -2147483648 ≤ value ∧ value ≤ 2147483647 then .ok value
          else .error .badConversion
      | none => .error .badConversion
  | _ => .error .badConversion

/-- `node.as<unsigned short>()`: a sign is refused before the digits are read. -/
def Node.asUShort : Node → Except Exn UInt16
  | .scalar text =>
      if text.toList.head? = some '-' then .error .badConversion
      else
        match readInt text with
        | some value =>
            if value ≤ 65535 then .ok (UInt16.ofNat value.toNat)
            else .error .badConversion
        | none => .error .badConversion
  | _ => .error .badConversion

/-! ## Booleans -/

/-- All lower case, all upper case, or one capital at the front. -/
def isFlexibleCase (text : String) : Bool :=
  match text.toList with
  | [] => true
  | c :: cs =>
      (c.isLower || c.isUpper) && cs.all Char.isLower || c.isUpper && cs.all Char.isUpper

def Node.asBool : Node → Except Exn Bool
  | .scalar text =>
      if isFlexibleCase text then
        match text.toLower with
        | "y" => .ok true
        | "yes" => .ok true
        | "true" => .ok true
        | "on" => .ok true
        | "n" => .ok false
        | "no" => .ok false
        | "false" => .ok false
        | "off" => .ok false
        | _ => .error .badConversion
      else .error .badConversion
  | _ => .error .badConversion

example : (Node.scalar "0x1F").asInt = .ok 31 := by decide

example : (Node.scalar "070").asUShort = .ok 56 := by decide

end Yaml
