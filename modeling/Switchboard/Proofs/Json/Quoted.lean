import Switchboard.Json.Printer
import Switchboard.Json.Reader

namespace Switchboard.Json

open Reader

variable {c : Char} {cs ds us vs : List Char} {n : Nat} {read : List Char}

theorem hexValue?_digitChar : ∀ m < 16, hexValue? (Nat.digitChar m) = some m := by
  decide

theorem unicodeEscape_hexPair (h : c.toNat < 0x20) :
    unicodeEscape ('0' :: '0' :: (hexPair c.toNat ++ us)) = .ok (c, us) := by
  have hz : hexValue? '0' = some 0 := hexValue?_digitChar 0 (by decide)
  have hh := hexValue?_digitChar (c.toNat / 16 % 16) (Nat.mod_lt _ (by decide))
  have hl := hexValue?_digitChar (c.toNat % 16) (Nat.mod_lt _ (by decide))
  have hn : c.toNat / 16 % 16 * 16 + c.toNat % 16 = c.toNat := by omega
  have hf : hexFour ('0' :: '0' :: (hexPair c.toNat ++ us)) = .ok (c.toNat, us) := by
    simp [hexFour, hexPair, hz, hh, hl, hn]
  have hs : c.toNat < 0xD800 ∨ 0xE000 ≤ c.toNat := .inl (by omega)
  rw [unicodeEscape, hf]
  refine (if_pos hs).trans ?_
  rw [Char.ofNat_toNat]
  rfl

-- A character stands for itself or begins an escape that is read as the character.
theorem escapeChar_cases (c : Char) :
    (escapeChar c = [c] ∧ c ≠ '"' ∧ c ≠ '\\' ∧ ¬c.toNat < 0x20) ∨
      ∃ es, escapeChar c = '\\' :: es ∧ ∀ us, escape (es ++ us) = .ok (c, us) := by
  by_cases hs : c ∈ ['"', '\\', '\n', '\r', '\t', '\x08', '\x0c']
  case pos =>
    simp only [List.mem_cons, List.not_mem_nil, or_false] at hs
    rcases hs with rfl | rfl | rfl | rfl | rfl | rfl | rfl
    all_goals exact .inr ⟨_, rfl, fun _ => rfl⟩
  case neg =>
    simp only [List.mem_cons, List.not_mem_nil, or_false, not_or] at hs
    by_cases hc : c.toNat < 0x20
    case pos =>
      have he : escapeChar c = '\\' :: 'u' :: '0' :: '0' :: hexPair c.toNat := by
        simp [escapeChar, hs, hc]
      exact .inr ⟨_, he, fun _ => unicodeEscape_hexPair hc⟩
    case neg =>
      have he : escapeChar c = [c] := by simp [escapeChar, hs, hc]
      exact .inl ⟨he, hs.left, hs.right.left, hc⟩

theorem escapeChar_ne_nil : escapeChar c ≠ [] := by
  rcases escapeChar_cases c with ⟨h, _⟩ | ⟨es, h, _⟩ <;> simp [h]

theorem textFrom_cons (hq : c ≠ '"') (hb : c ≠ '\\') (hc : ¬c.toNat < 0x20) :
    textFrom (n + 1) read (c :: cs) = textFrom n (c :: read) cs := by
  rw [textFrom.eq_5]
  · exact if_neg hc
  · exact hq
  · exact hb

theorem textFrom_escapeChar :
    textFrom (n + 1) read (escapeChar c ++ us) = textFrom n (c :: read) us := by
  cases escapeChar_cases c
  case inl h =>
    have ⟨he, hq, hb, hc⟩ := h
    rw [he]
    exact textFrom_cons hq hb hc
  case inr h =>
    have ⟨es, he, h⟩ := h
    have ht : textFrom (n + 1) read ('\\' :: (es ++ us)) =
        (escape (es ++ us)).bind fun p => textFrom n (p.1 :: read) p.2 := rfl
    rw [he, List.cons_append, ht, h]
    rfl

theorem textFrom_flatMap_escapeChar (h : cs.length < n) :
    textFrom n read (cs.flatMap escapeChar ++ '"' :: us) =
      .ok (String.ofList (read.reverse ++ cs), us) := by
  induction cs generalizing n read
  case nil =>
    cases n
    case zero => cases h
    case succ => simp [textFrom]
  case cons c cs hi =>
    cases n
    case zero => cases h
    case succ n =>
      rw [List.flatMap_cons, List.append_assoc, textFrom_escapeChar,
        hi (Nat.lt_of_succ_lt_succ h), List.reverse_cons, List.append_assoc,
        List.singleton_append]

theorem length_le_flatMap_escapeChar : cs.length ≤ (cs.flatMap escapeChar).length := by
  induction cs
  case nil => exact Nat.le_refl _
  case cons c cs hi =>
    have hc : 0 < (escapeChar c).length := List.length_pos_iff.mpr escapeChar_ne_nil
    rw [List.flatMap_cons, List.length_append, List.length_cons]
    omega

theorem text_flatMap_escapeChar :
    Reader.text (cs.flatMap escapeChar ++ '"' :: us) = .ok (String.ofList cs, us) := by
  have hl : cs.length ≤ (cs.flatMap escapeChar).length := length_le_flatMap_escapeChar
  have hn : cs.length < (cs.flatMap escapeChar ++ '"' :: us).length + 1 := by
    rw [List.length_append]
    omega
  rw [Reader.text, textFrom_flatMap_escapeChar hn]
  rfl

theorem quote_append_inj (h : quote cs ++ us = quote ds ++ vs) : cs = ds ∧ us = vs := by
  have hq {cs us : List Char} : quote cs ++ us = '"' :: (cs.flatMap escapeChar ++ '"' :: us) := by
    simp [quote]
  have hr : Reader.text (cs.flatMap escapeChar ++ '"' :: us) = .ok (String.ofList cs, us) :=
    text_flatMap_escapeChar
  rw [hq, hq, List.cons.injEq] at h
  rw [h.right, text_flatMap_escapeChar] at hr
  have ⟨hs, hv⟩ := Prod.mk.inj (Except.ok.inj hr)
  exact ⟨(String.ofList_inj.mp hs).symm, hv.symm⟩

end Switchboard.Json
