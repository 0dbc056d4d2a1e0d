import Hailcast.Lib.JsonRoundTrip

/-!
# The reader of JSON texts

Its rounds suffice for every text, so it reads back what is written.
-/

namespace JsonText

/-! ## The reader always has rounds enough -/

theorem length_skipBlanks_le (cs : List Char) : (skipBlanks cs).length ≤ cs.length := by
  induction cs with
  | nil => exact le_refl _
  | cons c cs ih =>
      rw [skipBlanks, List.dropWhile_cons]
      split
      · exact ih.trans (Nat.le_succ _)
      · exact le_refl _

/-- What is read besides what is left does not count. -/
theorem length_lt_of_read {α : Type} {x y : α} {t u cs : List Char} (h : some (x, u) = some (y, t))
    (hlt : u.length < cs.length) : t.length < cs.length := by
  obtain ⟨-, rfl⟩ := Prod.mk.inj (Option.some.inj h)
  exact hlt

theorem push_eq_some {u : Scalar} {o : Option (Units × List Char)} {p : Units × List Char}
    (h : push u o = some p) : ∃ us, o = some (us, p.2) := by
  obtain ⟨q, hq, rfl⟩ := Option.map_eq_some_iff.mp h
  exact ⟨q.1, hq⟩

theorem readUnits_length {cs t : List Char} {us : Units} (h : readUnits cs = some (us, t)) :
    t.length < cs.length := by
  fun_induction readUnits cs generalizing us t
  all_goals first
    | cases h; done
    | cases h; simp
    | rename_i ih
      obtain ⟨_, hrest⟩ := push_eq_some h
      have hlt : t.length < _ := ih hrest
      simp only [List.length_cons]
      omega

theorem readString_length {cs t : List Char} {us : Units} (h : readString cs = some (us, t)) :
    t.length < cs.length := by
  obtain ⟨p, hp, hpair⟩ := Option.map_eq_some_iff.mp h
  obtain ⟨-, rfl⟩ := Prod.mk.inj hpair
  exact readUnits_length hp

theorem scanInteger_length {cs ds t : List Char} (h : scanInteger cs = some (ds, t)) : t.length < cs.length := by
  unfold scanInteger at h
  split at h
  · exact length_lt_of_read h (Nat.lt_succ_self _)
  · split at h
    · exact length_lt_of_read h (Nat.lt_succ_of_le (List.length_dropWhile_le _ _))
    · cases h
  · cases h

theorem scanFraction_length (cs : List Char) : (scanFraction cs).2.length ≤ cs.length := by
  unfold scanFraction
  split
  · rename_i c cs
    split
    · have hle := List.length_dropWhile_le Char.isDigit cs
      simp only [List.length_cons]
      omega
    · exact le_refl _
  · exact le_refl _

theorem scanSign_length (cs : List Char) : (scanSign cs).2.length ≤ cs.length := by
  unfold scanSign
  split
  · exact Nat.le_succ _
  · exact Nat.le_succ _
  · exact le_refl _

theorem scanExponent_length (cs : List Char) : (scanExponent cs).2.length ≤ cs.length := by
  unfold scanExponent
  split
  · rename_i e cs
    split
    · have hsign := scanSign_length cs
      split
      · rename_i c ds heq
        rw [heq] at hsign
        split
        · have hle := List.length_dropWhile_le Char.isDigit ds
          simp only [List.length_cons] at hsign ⊢
          omega
        · exact le_refl _
      · exact le_refl _
    · exact le_refl _
  · exact le_refl _

theorem scanUnsigned_length {negative : Bool} {cs t : List Char} {m : Numeral}
    (h : scanUnsigned negative cs = some (m, t)) : t.length < cs.length := by
  unfold scanUnsigned at h
  split at h
  · rename_i ds u hint
    have ht : (scanExponent (scanFraction u).2).2 = t := (Prod.mk.inj (Option.some.inj h)).2
    calc
      t.length ≤ (scanFraction u).2.length := ht ▸ scanExponent_length _
      _ ≤ u.length := scanFraction_length u
      _ < cs.length := scanInteger_length hint
  · cases h

theorem scanNumeral_length {cs t : List Char} {m : Numeral} (h : scanNumeral cs = some (m, t)) :
    t.length < cs.length := by
  unfold scanNumeral at h
  split at h
  · exact (scanUnsigned_length h).trans (Nat.lt_succ_self _)
  · exact scanUnsigned_length h

section Rounds

variable {φ : Type} {F : FloatFormat φ}

theorem readNumber_length {cs t : List Char} {v : Value Units φ} (h : readNumber F cs = some (v, t)) :
    t.length < cs.length := by
  unfold readNumber at h
  split at h
  · rename_i m u hscan
    have hlt := scanNumeral_length hscan
    split at h
    · exact length_lt_of_read h hlt
    · split at h
      · exact length_lt_of_read h hlt
      · exact length_lt_of_read h hlt
  · cases h

variable (F)

/-- What is read in `n` rounds is not empty. -/
structure Shrinks (n : Nat) : Prop where
  value : ∀ {cs v t}, readValue F n cs = some (v, t) → t.length < cs.length
  items : ∀ {cs xs t}, readItems F n cs = some (xs, t) → t.length < cs.length
  members : ∀ {cs kvs t}, readMembers F n cs = some (kvs, t) → t.length < cs.length

variable {F}

theorem Shrinks.readValue_succ {n : Nat} (h : Shrinks F n) {cs t : List Char} {v : Value Units φ}
    (hv : readValue F (n + 1) cs = some (v, t)) : t.length < cs.length := by
  unfold readValue at hv
  split at hv
  · split at hv
    · rename_i hs
      exact length_lt_of_read hv ((readString_length hs).trans (Nat.lt_succ_self _))
    · cases hv
  · rename_i cs
    have hblanks := length_skipBlanks_le cs
    split at hv
    · rename_i heq
      rw [heq, List.length_cons] at hblanks
      exact length_lt_of_read hv (by simp only [List.length_cons]; omega)
    · split at hv
      · rename_i hitems
        have hlt := h.items hitems
        exact length_lt_of_read hv (by simp only [List.length_cons]; omega)
      · cases hv
  · rename_i cs
    have hblanks := length_skipBlanks_le cs
    split at hv
    · rename_i heq
      rw [heq, List.length_cons] at hblanks
      exact length_lt_of_read hv (by simp only [List.length_cons]; omega)
    · split at hv
      · rename_i hmembers
        have hlt := h.members hmembers
        exact length_lt_of_read hv (by simp only [List.length_cons]; omega)
      · cases hv
  · exact length_lt_of_read hv (by simp only [List.length_cons]; omega)
  · exact length_lt_of_read hv (by simp only [List.length_cons]; omega)
  · exact length_lt_of_read hv (by simp only [List.length_cons]; omega)
  · exact length_lt_of_read hv (by simp only [List.length_cons]; omega)
  · exact length_lt_of_read hv (by simp only [List.length_cons]; omega)
  · exact length_lt_of_read hv (by simp only [List.length_cons]; omega)
  · exact readNumber_length hv

theorem Shrinks.readItems_succ {n : Nat} (h : Shrinks F n) {cs t : List Char} {xs : List (Value Units φ)}
    (hxs : readItems F (n + 1) cs = some (xs, t)) : t.length < cs.length := by
  unfold readItems at hxs
  split at hxs
  · rename_i x u hx
    have hvalue := h.value hx
    have hblanks := length_skipBlanks_le u
    split at hxs
    · rename_i heq
      obtain ⟨-, rfl⟩ := Prod.mk.inj (Option.some.inj hxs)
      rw [heq, List.length_cons] at hblanks
      omega
    · rename_i w heq
      rw [heq, List.length_cons] at hblanks
      split at hxs
      · rename_i hitems
        obtain ⟨-, rfl⟩ := Prod.mk.inj (Option.some.inj hxs)
        have hlt := h.items hitems
        have hblanks' := length_skipBlanks_le w
        omega
      · cases hxs
    · cases hxs
  · cases hxs

theorem Shrinks.readMembers_succ {n : Nat} (h : Shrinks F n) {cs t : List Char} {kvs : List (Units × Value Units φ)}
    (hkvs : readMembers F (n + 1) cs = some (kvs, t)) : t.length < cs.length := by
  unfold readMembers at hkvs
  split at hkvs
  · rename_i n' cs hn
    obtain rfl := Nat.succ.inj hn
    split at hkvs
    · rename_i k u hk
      have hkey := readString_length hk
      have hblanks := length_skipBlanks_le u
      split at hkvs
      · rename_i w heq
        rw [heq, List.length_cons] at hblanks
        have hblanks' := length_skipBlanks_le w
        split at hkvs
        · rename_i x u' hx
          have hvalue := h.value hx
          have hblanks'' := length_skipBlanks_le u'
          split at hkvs
          · rename_i heq'
            obtain ⟨-, rfl⟩ := Prod.mk.inj (Option.some.inj hkvs)
            rw [heq', List.length_cons] at hblanks''
            simp only [List.length_cons]
            omega
          · rename_i w' heq'
            rw [heq', List.length_cons] at hblanks''
            split at hkvs
            · rename_i hmembers
              obtain ⟨-, rfl⟩ := Prod.mk.inj (Option.some.inj hkvs)
              have hlt := h.members hmembers
              have hle := length_skipBlanks_le w'
              simp only [List.length_cons]
              omega
            · cases hkvs
          · cases hkvs
        · cases hkvs
      · cases hkvs
    · cases hkvs
  · cases hkvs

theorem shrinks (n : Nat) : Shrinks F n := by
  induction n with
  | zero =>
      refine ⟨fun h => ?_, fun h => ?_, fun h => ?_⟩
      · cases h
      · cases h
      · unfold readMembers at h
        cases h
  | succ n ih => exact ⟨ih.readValue_succ, ih.readItems_succ, ih.readMembers_succ⟩

theorem readValue_congr {n m : Nat} {cs : List Char}
    (hitems : ∀ t, t.length < cs.length → readItems F n t = readItems F m t)
    (hmembers : ∀ t, t.length < cs.length → readMembers F n t = readMembers F m t) :
    readValue F (n + 1) cs = readValue F (m + 1) cs := by
  unfold readValue
  split
  · rfl
  · rename_i cs
    have hlt := Nat.lt_succ_of_le (length_skipBlanks_le cs)
    split
    · rfl
    · rw [hitems _ hlt]
  · rename_i cs
    have hlt := Nat.lt_succ_of_le (length_skipBlanks_le cs)
    split
    · rfl
    · rw [hmembers _ hlt]
  · rfl
  · rfl
  · rfl
  · rfl
  · rfl
  · rfl
  · rfl

theorem readItems_congr {n m : Nat} {cs : List Char} (hvalue : readValue F n cs = readValue F m cs)
    (hitems : ∀ t, t.length < cs.length → readItems F n t = readItems F m t) :
    readItems F (n + 1) cs = readItems F (m + 1) cs := by
  unfold readItems
  rw [hvalue]
  split
  · rename_i x u hx
    have hlt := (shrinks m).value hx
    have hblanks := length_skipBlanks_le u
    split
    · rfl
    · rename_i w heq
      rw [heq, List.length_cons] at hblanks
      have hle := length_skipBlanks_le w
      rw [hitems _ (by omega)]
    · rfl
  · rfl

theorem readMembers_congr {n m : Nat} {cs : List Char}
    (hvalue : ∀ t, t.length < cs.length → readValue F n t = readValue F m t)
    (hmembers : ∀ t, t.length < cs.length → readMembers F n t = readMembers F m t) :
    readMembers F (n + 1) cs = readMembers F (m + 1) cs := by
  cases cs with
  | nil => rfl
  | cons c cs =>
      by_cases hc : c = '"'
      · subst hc
        rw [readMembers, readMembers]
        split
        · rename_i k u hk
          have hkey := readString_length hk
          have hblanks := length_skipBlanks_le u
          split
          · rename_i w heq
            rw [heq, List.length_cons] at hblanks
            have hblanks' := length_skipBlanks_le w
            rw [hvalue _ (by simp only [List.length_cons]; omega)]
            split
            · rename_i x u' hx
              have hlt := (shrinks m).value hx
              have hblanks'' := length_skipBlanks_le u'
              split
              · rfl
              · rename_i w' heq'
                rw [heq', List.length_cons] at hblanks''
                have hle := length_skipBlanks_le w'
                rw [hmembers _ (by simp only [List.length_cons]; omega)]
              · rfl
            · rfl
          · rfl
        · rfl
      · rw [readMembers, readMembers]
        · exact fun _ _ _ h => hc (List.cons.inj h).1
        · exact fun _ _ _ h => hc (List.cons.inj h).1

/-- In rounds enough for the length of a text, more rounds change nothing. -/
theorem read_stable (n : Nat) :
    (∀ m cs, 2 * cs.length + 1 ≤ n → 2 * cs.length + 1 ≤ m → readValue F n cs = readValue F m cs) ∧
      (∀ m cs, 2 * cs.length + 2 ≤ n → 2 * cs.length + 2 ≤ m → readItems F n cs = readItems F m cs) ∧
      ∀ m cs, 2 * cs.length + 2 ≤ n → 2 * cs.length + 2 ≤ m → readMembers F n cs = readMembers F m cs := by
  induction n with
  | zero => exact ⟨fun _ _ h => by omega, fun _ _ h => by omega, fun _ _ h => by omega⟩
  | succ n ih =>
      obtain ⟨hvalue, hitems, hmembers⟩ := ih
      refine ⟨fun m cs hn hm => ?_, fun m cs hn hm => ?_, fun m cs hn hm => ?_⟩
      · cases m with
        | zero => omega
        | succ m =>
            exact readValue_congr (fun t ht => hitems m t (by omega) (by omega))
              fun t ht => hmembers m t (by omega) (by omega)
      · cases m with
        | zero => omega
        | succ m =>
            exact readItems_congr (hvalue m cs (by omega) (by omega)) fun t ht => hitems m t (by omega) (by omega)
      · cases m with
        | zero => omega
        | succ m =>
            exact readMembers_congr (fun t ht => hvalue m t (by omega) (by omega))
              fun t ht => hmembers m t (by omega) (by omega)

/-- A text in any style is read back as its value. -/
theorem loads_dumps (style : Style) {v : Value String φ} (hv : v.WellFormed) :
    loads F (dumps F style v) = some v.units := by
  obtain ⟨c, cs, hcs, hc⟩ : ∃ c cs, write F style 0 v = c :: cs ∧ ValueHead c := write_head v 0
  have hskip : skipBlanks (write F style 0 v) = write F style 0 v := by
    rw [hcs, skipBlanks_cons hc.1]
  have hreads : ReadsValues F style (2 * (write F style 0 v).length + 1 + v.depth) := (reads_write _).1
  have hread := hreads v hv (by omega) 0 [] stops_nil
  rw [List.append_nil, (read_stable _).1 (2 * (write F style 0 v).length + 1) _ (by omega) (le_refl _)] at hread
  rw [loads, dumps, String.toList_ofList, hskip, hread]
  rfl

theorem loadsStrings_dumps (style : Style) {v : Value String φ} (hv : v.WellFormed) :
    loadsStrings F (dumps F style v) = some v := by
  rw [loadsStrings, loads_dumps style hv]
  exact Value.strings?_units v

end Rounds

end JsonText
