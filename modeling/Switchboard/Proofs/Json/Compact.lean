import Switchboard.Json.Printer
import Switchboard.Proofs.Text.Joined

namespace Switchboard

namespace Decimal

variable {n : Nat} {i : Int} {ds : List Char}

theorem newline_not_mem_toDigits : '\n' ∉ Nat.toDigits 10 n := by
  intro h
  have hd : '\n'.isDigit := Nat.isDigit_of_mem_toDigits (by decide) (by decide) h
  exact absurd hd (by decide)

theorem newline_not_mem_repr : '\n' ∉ i.repr.toList := by
  cases i
  case ofNat n =>
    change '\n' ∉ (Nat.repr n).toList
    rw [Nat.repr, String.toList_ofList]
    exact newline_not_mem_toDigits
  case negSucc n =>
    change '\n' ∉ ("-" ++ Nat.repr (n + 1)).toList
    rw [String.toList_append, Nat.repr, String.toList_ofList]
    simp [newline_not_mem_toDigits]

namespace Layout

variable {l : Layout} {r : Nat} {place : Int} {x : Binary64}

theorem newline_not_mem_plain (h : '\n' ∉ ds) : '\n' ∉ plain ds place := by
  have ht : ∀ n, '\n' ∉ ds.take n := fun n hm => h (List.mem_of_mem_take hm)
  have hd : ∀ n, '\n' ∉ ds.drop n := fun n hm => h (List.mem_of_mem_drop hm)
  rw [plain]
  split
  case isTrue  => simp [h]
  case isFalse =>
    dsimp only
    split <;> simp [ht, hd]

theorem newline_not_mem_scientific (h : '\n' ∉ ds) : '\n' ∉ l.scientific ds place := by
  have ht : '\n' ∉ ds.take 1 := fun hm => h (List.mem_of_mem_take hm)
  have hd : '\n' ∉ ds.tail := fun hm => h (List.mem_of_mem_tail hm)
  rw [scientific]
  split <;> split <;> simp [ht, hd, newline_not_mem_repr]

theorem newline_not_mem_magnitude : '\n' ∉ l.magnitude r := by
  rw [magnitude]
  split
  case isTrue  => simp
  case isFalse =>
    dsimp only
    split
    case isTrue  => exact newline_not_mem_plain newline_not_mem_toDigits
    case isFalse => exact newline_not_mem_scientific newline_not_mem_toDigits

theorem newline_not_mem_write : '\n' ∉ l.write x := by
  cases x
  case nan => simp [write]
  case number s r =>
    rw [write]
    split <;> split <;> simp [newline_not_mem_magnitude]

end Layout

end Decimal

namespace Json

variable {c : Char} {cs : List Char} {parts : List (List Char)}

theorem newline_not_mem_hexPair (n : Nat) : '\n' ∉ hexPair n := by
  have hd : ∀ m < 16, '\n' ≠ Nat.digitChar m := by decide
  simp [hexPair, hd _ (Nat.mod_lt _ _)]

theorem newline_not_mem_escapeChar (c : Char) : '\n' ∉ escapeChar c := by
  rw [escapeChar]
  repeat' split
  all_goals simp [newline_not_mem_hexPair, eq_comm, *]

theorem newline_not_mem_quote : '\n' ∉ quote cs := by
  simp [quote, newline_not_mem_escapeChar]

theorem newline_not_mem_intercalate (h : ∀ p ∈ parts, '\n' ∉ p) :
    '\n' ∉ List.intercalate [','] parts := by
  cases parts
  case nil => simp
  case cons p ps =>
    rw [Text.intercalate_cons]
    simp_all

mutual

theorem newline_not_mem_chars : ∀ x : Json, '\n' ∉ x.chars
  | .null => by simp [chars]
  | .bool b => by cases b <;> simp [chars]
  | .whole i => Decimal.newline_not_mem_repr
  | .real x => Decimal.Layout.newline_not_mem_write
  | .text s => newline_not_mem_quote
  | .array xs => by
    have hx := newline_not_mem_intercalate (newline_not_mem_itemChars xs)
    simp [chars, hx]
  | .object ms => by
    have hm := newline_not_mem_intercalate (newline_not_mem_memberChars ms)
    simp [chars, hm]

theorem newline_not_mem_itemChars : ∀ xs : List Json, ∀ p ∈ itemChars xs, '\n' ∉ p
  | [] => nofun
  | x :: xs => List.forall_mem_cons.mpr ⟨newline_not_mem_chars x, newline_not_mem_itemChars xs⟩

theorem newline_not_mem_memberChars : ∀ ms : List (String × Json), ∀ p ∈ memberChars ms, '\n' ∉ p
  | [] => nofun
  | (k, x) :: ms => by
    have hm : '\n' ∉ quote k.toList ++ ':' :: x.chars := by
      simp [newline_not_mem_quote, newline_not_mem_chars x]
    exact List.forall_mem_cons.mpr ⟨hm, newline_not_mem_memberChars ms⟩

end

end Json

end Switchboard
