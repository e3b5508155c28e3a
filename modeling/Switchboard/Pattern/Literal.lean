import Switchboard.Decimal.Numeral

namespace Switchboard

inductive Constant
  | int (i : Int64)
  | float (x : Binary64)
  | text (s : String)
deriving DecidableEq

namespace Constant

def ofText (s : String) : Constant :=
  match (Decimal.integer? s.toList).bind Word.ofInt? with
  | some i => .int i
  | none =>
    if Decimal.looksNumeric s.toList then
      match Decimal.binary64? s.toList with
      | some x => .float x
      | none => .text s
    else .text s

def toBinary64? : Constant → Option Binary64
  | int i => some (.ofInt i.toInt)
  | float x => some x
  | text _ => none

end Constant

-- The constant is kept beside the text so that it is read only once.
structure Literal where
  source    : String
  constant  : Constant
  ofText_eq : constant = Constant.ofText source

namespace Literal

def ofText (s : String) : Literal :=
  ⟨s, .ofText s, rfl⟩

theorem ext_source {l k : Literal} (h : l.source = k.source) : l = k := by
  obtain ⟨s, c, hc⟩ := l
  obtain ⟨t, d, hd⟩ := k
  cases h
  cases hc
  cases hd
  rfl

instance : DecidableEq Literal := fun l k =>
  if h : l.source = k.source then .isTrue (ext_source h) else .isFalse fun e => h (e ▸ rfl)

end Literal

end Switchboard
