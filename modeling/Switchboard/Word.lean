namespace Switchboard.Word

def ofInt? (i : Int) : Option Int64 :=
  if -0x8000000000000000 ≤ i ∧ i < 0x8000000000000000 then some (Int64.ofInt i) else none

theorem ofInt?_eq_some_iff {i : Int} {n : Int64} : ofInt? i = some n ↔ n.toInt = i := by
  constructor
  · intro h
    unfold ofInt? at h
    split at h
    · next hi =>
      cases h
      exact Int64.toInt_ofInt_of_le hi.1 hi.2
    · cases h
  · rintro rfl
    have h : -0x8000000000000000 ≤ n.toInt ∧ n.toInt < 0x8000000000000000 :=
      ⟨n.le_toInt, n.toInt_lt⟩
    simp [ofInt?, h]

theorem ofInt?_eq_none_iff {i : Int} :
    ofInt? i = none ↔ i < -0x8000000000000000 ∨ 0x8000000000000000 ≤ i := by
  simp only [ofInt?, ite_eq_right_iff, reduceCtorEq, imp_false]
  omega

end Switchboard.Word
