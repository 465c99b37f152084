import Mathlib.Algebra.Ring.Nat
import Mathlib.Data.List.Lex
import Mathlib.Order.Fin.Basic
import SettlementOS.Computation.Delimited

/-!
# The fingerprint of a request body (`lib/idempotency.ts`)

A body is written with its keys in order, so that the order a client sent them in does not matter,
and hashed. Strings are their UTF-16 code units, which may be half of a surrogate pair; how a finite
number is written is the runtime's business.
-/

set_option autoImplicit false

namespace SettlementOS.Model.Fingerprint

open SettlementOS.Computation

/-- A UTF-16 code unit. -/
abbrev CodeUnit : Type := Fin (2 ^ 16)

/-- There are code units. -/
instance neZero_units : NeZero (2 ^ 16) := ⟨by decide⟩

/-- A string of the language. -/
abbrev JsString : Type := List CodeUnit

/-- The code unit of an ASCII character. -/
def unit (c : Char) : CodeUnit := Fin.ofNat (2 ^ 16) c.toNat

/-- An ASCII text. -/
def ascii (s : String) : JsString := s.toList.map unit

/-! ## `JSON.stringify` of a string -/

/-- Whether the unit is the first half of a surrogate pair. -/
def leads (u : CodeUnit) : Bool := 0xD800 ≤ u.val ∧ u.val < 0xDC00

/-- Whether the unit is the second half of a surrogate pair. -/
def trails (u : CodeUnit) : Bool := 0xDC00 ≤ u.val ∧ u.val < 0xE000

/-- The character a unit is escaped with, if it has one of its own. -/
def shortEscape (u : CodeUnit) : Option Char :=
  if u.val = 0x08 then some 'b'
  else if u.val = 0x09 then some 't'
  else if u.val = 0x0A then some 'n'
  else if u.val = 0x0C then some 'f'
  else if u.val = 0x0D then some 'r'
  else if u.val = 0x22 then some '"'
  else if u.val = 0x5C then some '\\'
  else none

/-- A hexadecimal digit, in lower case. -/
def hexDigit (n : ℕ) : CodeUnit := Fin.ofNat (2 ^ 16) (if n < 10 then 48 + n else 87 + n)

/-- `\u` with four digits. -/
def hexEscape (u : CodeUnit) : JsString :=
  [unit '\\', unit 'u', hexDigit (u.val / 4096), hexDigit (u.val / 256 % 16),
    hexDigit (u.val / 16 % 16), hexDigit (u.val % 16)]

/-- A unit between quotes; `paired` says whether it is half of a pair. -/
def quoteUnit (paired : Bool) (u : CodeUnit) : JsString :=
  match shortEscape u with
  | some c => [unit '\\', unit c]
  | none => if u.val < 0x20 ∨ (leads u ∨ trails u) ∧ ¬ paired then hexEscape u else [u]

/-- What stands between the quotes; `afterLead` says whether the unit before leads a pair. -/
def quoteUnits (afterLead : Bool) : JsString → JsString
  | [] => []
  | u :: s =>
    let paired := leads u && s.head?.any trails || trails u && afterLead
    quoteUnit paired u ++ quoteUnits (leads u) s

/-- `JSON.stringify` of a string. -/
def quote (s : JsString) : JsString := unit '"' :: (quoteUnits false s ++ [unit '"'])

/-! ## Values -/

/-- A value, with finite numbers. -/
inductive Value (ν : Type) where
  | undefined
  | null
  | bool (b : Bool)
  | number (n : ν)
  | string (s : JsString)
  | array (items : List (Value ν))
  | object (entries : List (JsString × Value ν))

variable {ν : Type}

/-- The entries of an object in the order of their keys, each with its text. -/
def sortEntries {α : Type} (entries : List (JsString × α)) : List (JsString × α) :=
  entries.mergeSort fun a b => decide (a.1 ≤ b.1)

/-- An entry with the text of its value. -/
def member (e : JsString × JsString) : JsString := quote e.1 ++ unit ':' :: e.2

mutual

/-- `canonical`, with numbers written by `textOf`. The values' texts are taken before the entries
are sorted, which looks at keys only. -/
def canonical (textOf : ν → JsString) : Value ν → JsString
  | .undefined => ascii "null"
  | .null => ascii "null"
  | .bool b => ascii (if b then "true" else "false")
  | .number n => textOf n
  | .string s => quote s
  | .array items => unit '[' :: (joined (unit ',') (canonicalItems textOf items) ++ [unit ']'])
  | .object entries => unit '{' ::
      (joined (unit ',') ((sortEntries (canonicalEntries textOf entries)).map member) ++ [unit '}'])

/-- The texts of the items, one by one. -/
def canonicalItems (textOf : ν → JsString) : List (Value ν) → List JsString
  | [] => []
  | item :: items => canonical textOf item :: canonicalItems textOf items

/-- The entries that are defined, with the texts of their values. -/
def canonicalEntries (textOf : ν → JsString) : List (JsString × Value ν) →
    List (JsString × JsString)
  | [] => []
  | (_, .undefined) :: entries => canonicalEntries textOf entries
  | (key, value) :: entries => (key, canonical textOf value) :: canonicalEntries textOf entries

end

/-- `hashRequest` -/
def hashRequest (sha256 : JsString → String) (textOf : ν → JsString) (body : Value ν) : String :=
  sha256 (canonical textOf body)

mutual

/-- Whether a value is one that JSON can write: all of it is defined, and no object has a key
twice. -/
def IsJson : Value ν → Prop
  | .undefined => False
  | .array items => AllJson items
  | .object entries => (entries.map Prod.fst).Nodup ∧ EntriesJson entries
  | _ => True

/-- Each of the items is JSON. -/
def AllJson : List (Value ν) → Prop
  | [] => True
  | item :: items => IsJson item ∧ AllJson items

/-- Each of the values is JSON. -/
def EntriesJson : List (JsString × Value ν) → Prop
  | [] => True
  | (_, value) :: entries => IsJson value ∧ EntriesJson entries

end

/-- A JSON value. -/
structure Json (ν : Type) where
  value : Value ν
  isJson : IsJson value

end SettlementOS.Model.Fingerprint
