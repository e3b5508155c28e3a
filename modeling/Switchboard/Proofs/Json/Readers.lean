import Mathlib.Data.List.TakeWhile
import Switchboard.Json.Reader
import Switchboard.Proofs.Gathers
import Switchboard.Proofs.Keyed.Order

namespace Switchboard.Json

open Outcome

namespace Reader

variable {b : Bool} {n d : Nat} {e : Int} {x y : Json} {cs rest : List Char} {letters : List Char}
variable {ms : Entries String Json} {path : Path}

theorem word_eq_ok_iff : word letters x cs = .ok (y, rest) ↔ cs = letters ++ rest ∧ x = y := by
  rw [word]
  induction letters generalizing cs
  case nil => simp [word.go, and_comm]
  case cons l ls hi =>
    cases cs
    case nil  => simp [word.go]
    case cons c cs =>
      rw [word.go]
      split
      case isTrue hc  => rw [hi, hc, List.cons_append, List.cons_inj_right]
      case isFalse hc => simp [Ne.symm hc]

theorem real_ne_object : real b n e ≠ .ok (.object ms) := by
  rw [real]
  split
  case h_1 x hx =>
    have ⟨rank, _, hr⟩ := Option.bind_eq_some_iff.mp hx
    rw [realOfRank?] at hr
    grind
  case h_2 => exact nofun

theorem exponentPart_ne_object : exponentPart b n e cs ≠ .ok (.object ms, rest) := by
  simp only [exponentPart]
  repeat' split
  all_goals simp [map_eq_ok_iff, real_ne_object]

theorem fractionPart_ne_object : fractionPart b n e cs ≠ .ok (.object ms, rest) := by
  simp only [fractionPart]
  repeat' split
  all_goals simp [map_eq_ok_iff, real_ne_object, exponentPart_ne_object]

theorem integer_ne_object : integer b n ≠ .ok (.object ms) := by
  intro h
  unfold integer at h
  extract_lets i at h
  split at h
  case isTrue  => cases h
  case isFalse => exact real_ne_object h

theorem number_ne_object : number b cs ≠ .ok (.object ms, rest) := by
  simp only [number]
  repeat' split
  all_goals simp [map_eq_ok_iff, real_ne_object, integer_ne_object, exponentPart_ne_object,
    fractionPart_ne_object]

theorem scalar_ne_object : scalar cs ≠ .ok (.object ms, rest) := by
  rw [scalar.eq_def]
  repeat' split
  all_goals simp [map_eq_ok_iff, word_eq_ok_iff, number_ne_object]

theorem refuse_ne_ok {α : Type} {wanted : Wanted} {y : α × List Char} :
    refuse path wanted cs ≠ .ok y := by
  rw [refuse]
  split <;> exact nofun

theorem value_eq_ok_object_iff :
    value (n + 1) (d + 1) [] cs = .ok (.object ms, rest) ↔
      ∃ es, front (value n d) n cs = .ok (es, rest) ∧ (Keyed.ofList es).entries = ms := by
  rw [value.eq_def, front]
  dsimp only
  split
  case h_1 hd => cases hd
  case h_2 hd => cases hd
  case h_3 hs _ => simp [hs, map_eq_ok_iff, refuse_ne_ok]
  case h_4 hs hd =>
    cases hd
    simp [hs, map_eq_ok_iff]
  case h_5 hs =>
    simp only [located, mapError_eq_ok_iff, scalar_ne_object, false_iff]
    split
    case h_1 us hs' => exact absurd rfl (hs us d hs')
    case h_2        => simp [refuse_ne_ok]

end Reader

-- What is relied on: all readers read an object by the same entries, of which a repeated key keeps
-- its first place and its last value, and a document is a value with nothing but blanks behind it.
structure Readers.IsDocumented (r : Readers) : Prop where
  value_iff    : ∀ s ms rest, r.value s = .ok (.object ms, rest) ↔
                   ∃ es, r.entries s = some (es, rest) ∧ (Keyed.ofList es).entries = ms
  members_iff  : ∀ s m rest, r.members s = .ok (m, rest) ↔
                   ∃ es, r.entries s = some (es, rest) ∧ Keyed.ofList es = m
  document_iff : ∀ s x, r.document s = .ok x ↔
                   ∃ rest, r.value s = .ok (x, rest) ∧ rest.toList.all isBlank

variable {r : Readers} {s rest : String} {m : Keyed String Json} {x : Json}

theorem readers_value_eq_ok_iff :
    readers.value s = .ok (x, rest) ↔
      ∃ cs, Reader.value (Reader.turns s.toList) Reader.depthLimit [] s.toList = .ok (x, cs) ∧
        String.ofList cs = rest := by
  simp only [readers]
  cases Reader.value (Reader.turns s.toList) Reader.depthLimit [] s.toList
  case error => simp
  case ok y  => simp [Prod.ext_iff]

theorem readers_entries_eq_some_iff {es : Entries String Json} :
    readers.entries s = some (es, rest) ↔
      ∃ cs, Reader.entries s = .ok (es, cs) ∧ String.ofList cs = rest := by
  simp only [readers]
  cases Reader.entries s
  case error => simp [Except.toOption]
  case ok y  => simp [Except.toOption, Prod.ext_iff]

theorem keyed_eq_ok_iff {α : Type} {p : Except Fault (List (String × α) × List Char)}
    {m : Keyed String α} :
    Reader.keyed p = .ok (m, rest) ↔
      ∃ es cs, p = .ok (es, cs) ∧ String.ofList cs = rest ∧ Keyed.ofList es = m := by
  cases p
  case error => simp [Reader.keyed]
  case ok y  => simp [Reader.keyed, Prod.ext_iff, and_comm]

theorem all_isBlank_iff {cs : List Char} :
    (Reader.skipBlanks cs).isEmpty ↔ (String.ofList cs).toList.all isBlank := by
  rw [Reader.skipBlanks, List.isEmpty_iff, List.dropWhile_eq_nil_iff, String.toList_ofList,
    List.all_eq_true]

theorem isDocumented_readers : readers.IsDocumented where
  value_iff s ms rest := by
    have hv : ∀ cs, Reader.value (Reader.turns s.toList) Reader.depthLimit [] s.toList =
        .ok (.object ms, cs) ↔
          ∃ es, Reader.entries s = .ok (es, cs) ∧ (Keyed.ofList es).entries = ms :=
      fun _ => Reader.value_eq_ok_object_iff
    simp only [readers_value_eq_ok_iff, readers_entries_eq_some_iff, hv]
    grind
  members_iff s m rest := by
    simp only [readers_entries_eq_some_iff]
    rw [readers, keyed_eq_ok_iff]
    grind
  document_iff s x := by
    simp only [readers_value_eq_ok_iff]
    rw [readers, mapError_eq_ok_iff, ofString, bind_eq_ok_iff]
    constructor
    case mp =>
      intro ⟨⟨y, cs⟩, hv, hy⟩
      dsimp only at hy
      split at hy
      case isFalse   => cases hy
      case isTrue hb =>
        cases hy
        exact ⟨_, ⟨cs, hv, rfl⟩, all_isBlank_iff.mp hb⟩
    case mpr =>
      rintro ⟨_, ⟨cs, hv, rfl⟩, hb⟩
      exact ⟨(x, cs), hv, if_pos (all_isBlank_iff.mpr hb)⟩

theorem ofStringWithPath_eq_ok_iff {α : Type} {read : String → Except PathError (α × String)}
    {x : α} : ofStringWithPath read s = .ok x ↔ ∃ rest, read s = .ok (x, rest) := by
  rw [ofStringWithPath]
  split
  case h_1 h => simp [h]
  case h_2 h => simp [h]

namespace Readers.IsDocumented

variable (h : r.IsDocumented)
include h

theorem members_eq_ok_iff :
    r.members s = .ok (m, rest) ↔ r.value s = .ok (.object m.entries, rest) := by
  rw [h.members_iff, h.value_iff]
  refine exists_congr fun es => and_congr_right fun _ => ⟨?_, Keyed.ext_entries⟩
  exact congrArg Keyed.entries

theorem ofStringWithPath_members_iff :
    ofStringWithPath r.members s = .ok m ↔
      ∃ rest, r.value s = .ok (.object m.entries, rest) := by
  simp only [ofStringWithPath_eq_ok_iff, h.members_eq_ok_iff]

theorem document_object_iff :
    r.document s = .ok (.object m.entries) ↔
      ofStringWithPath r.members s = .ok m ∧
        ∀ x rest, r.value s = .ok (x, rest) → rest.toList.all isBlank := by
  rw [h.document_iff, h.ofStringWithPath_members_iff]
  constructor
  case mp =>
    intro ⟨rest, hv, hb⟩
    refine ⟨⟨rest, hv⟩, fun _ _ hv' => ?_⟩
    cases hv.symm.trans hv'
    exact hb
  case mpr => exact fun ⟨⟨rest, hv⟩, hb⟩ => ⟨rest, hv, hb _ rest hv⟩

end Readers.IsDocumented

-- An object is read by its members exactly if one stands at the front of the text, and as the same
-- document exactly if nothing but blanks is left then. So both readings agree on a text exactly if
-- nothing else follows an object at its front. Keys keep the order in which they first stand and
-- hold what they stand with last.
theorem ofStringWithPath_exact (h : r.IsDocumented) (s : String) :
    (∀ m, ofStringWithPath r.members s = .ok m ↔
      ∃ rest, r.value s = .ok (.object m.entries, rest)) ∧
    (∀ m, r.document s = .ok (.object m.entries) ↔
      ofStringWithPath r.members s = .ok m ∧
        ∀ x rest, r.value s = .ok (x, rest) → rest.toList.all isBlank) ∧
    ((∀ m, ofStringWithPath r.members s = .ok m ↔ r.document s = .ok (.object m.entries)) ↔
      ∀ ms rest, r.value s = .ok (.object ms, rest) → rest.toList.all isBlank) ∧
    ∀ es rest, r.entries s = some (es, rest) →
      ∃ m, ofStringWithPath r.members s = .ok m ∧ m.keys = (Entries.keys es).eraseDups ∧
        ∀ k, m.get? k = Entries.get? k es.reverse := by
  refine ⟨fun _ => h.ofStringWithPath_members_iff, fun _ => h.document_object_iff, ⟨?_, ?_⟩, ?_⟩
  case refine_1 =>
    intro ha ms rest hv
    have ⟨es, _, hm⟩ := (h.value_iff s ms rest).mp hv
    subst hm
    have hd := (ha (.ofList es)).mp (h.ofStringWithPath_members_iff.mpr ⟨rest, hv⟩)
    exact (h.document_object_iff.mp hd).right _ rest hv
  case refine_2 =>
    intro hb m
    refine ⟨fun hm => ?_, fun hd => (h.document_object_iff.mp hd).left⟩
    have ⟨rest, hv⟩ := h.ofStringWithPath_members_iff.mp hm
    exact (h.document_iff s _).mpr ⟨rest, hv, hb _ rest hv⟩
  case refine_3 =>
    intro es rest he
    refine ⟨.ofList es, ?_, Entries.keys_putAll_nil, fun _ => Entries.get?_putAll_nil⟩
    exact ofStringWithPath_eq_ok_iff.mpr ⟨rest, (h.members_iff s _ rest).mpr ⟨es, he, rfl⟩⟩

theorem ofStringWithPath_exact_repeated : readers.IsDocumented ∧ ∃ m,
    ofStringWithPath readers.members "\x7b\"b\": 1, \"a\": 2,\"b\": 3\x7d " = .ok m ∧
    readers.document "\x7b\"b\": 1, \"a\": 2,\"b\": 3\x7d " = .ok (.object m.entries) ∧
    m.keys = ["b", "a"] ∧ m.get? "b" = some (.whole ⟨3, by decide⟩) := by
  refine ⟨isDocumented_readers, ?_⟩
  have ⟨_, hd, _, hm⟩ :=
    ofStringWithPath_exact isDocumented_readers "\x7b\"b\": 1, \"a\": 2,\"b\": 3\x7d "
  obtain ⟨m, hm, hk, hg⟩ := hm [("b", .whole ⟨1, by decide⟩), ("a", .whole ⟨2, by decide⟩),
    ("b", .whole ⟨3, by decide⟩)] " " rfl
  have hv : readers.value "\x7b\"b\": 1, \"a\": 2,\"b\": 3\x7d " =
      .ok (.object [("b", .whole ⟨3, by decide⟩), ("a", .whole ⟨2, by decide⟩)], " ") := rfl
  refine ⟨m, hm, (hd m).mpr ⟨hm, fun _ _ hx => ?_⟩, hk, hg "b"⟩
  cases hv.symm.trans hx
  rfl

-- What follows an object is an error in a document only.
theorem not_ofStringWithPath_eq_ok_iff_document :
    ¬∀ r : Readers, r.IsDocumented → ∀ s m,
      ofStringWithPath r.members s = .ok m ↔ r.document s = .ok (.object m.entries) := by
  intro h
  have h := (h readers isDocumented_readers "\x7b\"a\": 1\x7d x"
    (.ofList [("a", .whole ⟨1, by decide⟩)])).mp rfl
  cases h

end Switchboard.Json
