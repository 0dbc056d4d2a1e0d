import Hailcast.Lib.JsonText
import Mathlib.Data.List.TakeWhile

/-!
# What is written is read back

Strings and numbers first, then values by the rounds of the reader.
-/

namespace JsonText

/-! ## Strings are read back -/

theorem hexValue_digitChar : ∀ d < 16, hexValue (Nat.digitChar d) = some d := by decide

theorem hexValue4_zero (a b : Nat) (ha : a < 16) (hb : b < 16) :
    hexValue4 '0' '0' (Nat.digitChar a) (Nat.digitChar b) = some (a * 16 + b) := by
  have hzero : hexValue '0' = some 0 := by decide
  simp [hexValue4, hzero, hexValue_digitChar a ha, hexValue_digitChar b hb]

theorem readUnits_escaped (e c : Char) (he : e ≠ 'u') (hc : unescape e = some c) (cs : List Char) :
    readUnits ('\\' :: e :: cs) = push (.char c) (readUnits cs) := by
  rw [readUnits, hc]
  exact fun _ _ _ _ _ hu _ => he hu

theorem readUnits_plain (c : Char) (hquote : c ≠ '"') (hback : c ≠ '\\') (hc : 32 ≤ c.toNat) (cs : List Char) :
    readUnits (c :: cs) = push (.char c) (readUnits cs) := by
  rw [readUnits, if_neg (by omega)]
  · exact hquote
  · exact fun _ _ _ _ _ hc _ => hback hc
  · exact fun _ _ hc _ => hback hc

theorem readUnits_control (c : Char) (hc : c.toNat < 32) (cs : List Char) :
    readUnits ('\\' :: 'u' :: '0' :: '0' :: Nat.digitChar (c.toNat / 16) :: Nat.digitChar (c.toNat % 16) :: cs) =
      push (.char c) (readUnits cs) := by
  have hhex := hexValue4_zero (c.toNat / 16) (c.toNat % 16) (by omega) (by omega)
  rw [Nat.div_add_mod' c.toNat 16] at hhex
  have hhigh : isHighSurrogate c.toNat = false := by simp [isHighSurrogate]; omega
  have hlow : isLowSurrogate c.toNat = false := by simp [isLowSurrogate]; omega
  rw [readUnits]
  simp only [hhex, hhigh, hlow, Bool.or_self, Bool.false_eq_true, ↓reduceIte, Char.ofNat_toNat]

theorem readUnits_escapeChar (c : Char) (cs : List Char) :
    readUnits (escapeChar c ++ cs) = push (.char c) (readUnits cs) := by
  unfold escapeChar
  split
  · subst c; exact readUnits_escaped '"' '"' (by decide) rfl cs
  split
  · subst c; exact readUnits_escaped '\\' '\\' (by decide) rfl cs
  split
  · subst c; exact readUnits_escaped 'n' '\n' (by decide) rfl cs
  split
  · subst c; exact readUnits_escaped 'r' '\r' (by decide) rfl cs
  split
  · subst c; exact readUnits_escaped 't' '\t' (by decide) rfl cs
  split
  · subst c; exact readUnits_escaped 'f' '\x0c' (by decide) rfl cs
  split
  · subst c; exact readUnits_escaped 'b' '\x08' (by decide) rfl cs
  split
  · exact readUnits_control c ‹_› cs
  · exact readUnits_plain c ‹_› ‹_› (by omega) cs

theorem joinPairs_chars (cs : List Char) : joinPairs (cs.map .char) = cs.map .char := by
  induction cs with
  | nil => rfl
  | cons c cs ih => simp [joinPairs, ih]

theorem readString_quoted (s : String) (cs : List Char) :
    readString (s.toList.flatMap escapeChar ++ '"' :: cs) = some (Units.ofString s, cs) := by
  have hunits : ∀ chars : List Char,
      readUnits (chars.flatMap escapeChar ++ '"' :: cs) = some (chars.map .char, cs) := by
    intro chars
    induction chars with
    | nil => rfl
    | cons c chars ih =>
        rw [List.flatMap_cons, List.append_assoc, readUnits_escapeChar, ih]
        rfl
  rw [readString, hunits]
  simp [joinPairs_chars, Units.ofString]

/-! ## Numbers are read back -/

/-- The rest of a text does not go on with a number. -/
def Stops (cs : List Char) : Prop := ∀ c ∈ cs.head?, c.isDigit = false ∧ c ≠ '.' ∧ c ≠ 'e' ∧ c ≠ 'E'

theorem stops_nil : Stops [] := by
  intro c hc
  cases hc

theorem stops_cons {c : Char} {cs : List Char} (hdigit : c.isDigit = false) (hdot : c ≠ '.') (he : c ≠ 'e')
    (hE : c ≠ 'E') : Stops (c :: cs) := by
  intro c' hc'
  obtain rfl := Option.some.inj hc'
  exact ⟨hdigit, hdot, he, hE⟩

theorem span_append {p : Char → Bool} {cs : List Char} (rest : List Char)
    (h : cs.dropWhile p = [] → ∀ c ∈ rest.head?, p c = false) :
    (cs ++ rest).takeWhile p = cs.takeWhile p ∧ (cs ++ rest).dropWhile p = cs.dropWhile p ++ rest := by
  induction cs with
  | nil =>
      cases rest with
      | nil => exact ⟨rfl, rfl⟩
      | cons c rest =>
          have hc := h rfl c rfl
          simp [hc]
  | cons c cs ih =>
      cases hc : p c with
      | true =>
          obtain ⟨htake, hdrop⟩ := ih fun hnil => h (by simpa [hc] using hnil)
          simp [hc, htake, hdrop]
      | false => simp [hc]

theorem scanInteger_append {cs ds t rest : List Char} (h : scanInteger cs = some (ds, t)) (ht : t = [] → Stops rest) :
    scanInteger (cs ++ rest) = some (ds, t ++ rest) := by
  cases cs with
  | nil => cases h
  | cons c cs =>
      by_cases hzero : c = '0'
      · subst hzero
        obtain ⟨rfl, rfl⟩ := Prod.mk.inj (Option.some.inj h)
        rfl
      · rw [scanInteger] at h
        · split at h
          · rename_i hdigit
            obtain ⟨rfl, rfl⟩ := Prod.mk.inj (Option.some.inj h)
            obtain ⟨htake, hdrop⟩ := span_append rest fun hnil c hc => (ht hnil c hc).1
            rw [List.cons_append, scanInteger, if_pos hdigit, htake, hdrop]
            intro hc
            exact hzero hc
          · cases h
        · exact fun hc => hzero hc

theorem scanFraction_of_ne {c : Char} {cs : List Char} (h : c ≠ '.') : scanFraction (c :: cs) = ([], c :: cs) := by
  unfold scanFraction
  split
  · simp_all
  · rfl

theorem scanFraction_append {cs ds t rest : List Char} (h : scanFraction cs = (ds, t)) (hdot : t ≠ ['.'])
    (ht : t = [] → Stops rest) : scanFraction (cs ++ rest) = (ds, t ++ rest) := by
  match cs with
  | [] =>
      obtain ⟨rfl, rfl⟩ := Prod.mk.inj h
      cases rest with
      | nil => rfl
      | cons c rest => exact scanFraction_of_ne (ht rfl c rfl).2.1
  | [c] =>
      by_cases hc : c = '.'
      · subst hc
        obtain ⟨rfl, rfl⟩ := Prod.mk.inj h
        exact absurd rfl hdot
      · rw [scanFraction_of_ne hc] at h
        obtain ⟨rfl, rfl⟩ := Prod.mk.inj h
        exact scanFraction_of_ne hc
  | c :: d :: cs =>
      by_cases hc : c = '.'
      · subst hc
        rw [List.cons_append, List.cons_append, scanFraction]
        rw [scanFraction] at h
        split at h
        · rename_i hdigit
          obtain ⟨rfl, rfl⟩ := Prod.mk.inj h
          obtain ⟨htake, hdrop⟩ := span_append rest fun hnil c hc => (ht hnil c hc).1
          rw [if_pos hdigit, htake, hdrop]
        · rename_i hdigit
          obtain ⟨rfl, rfl⟩ := Prod.mk.inj h
          rw [if_neg hdigit]
          rfl
      · rw [scanFraction_of_ne hc] at h
        obtain ⟨rfl, rfl⟩ := Prod.mk.inj h
        exact scanFraction_of_ne hc

theorem scanSign_append (cs : List Char) (h : (scanSign cs).2 ≠ []) (rest : List Char) :
    scanSign (cs ++ rest) = ((scanSign cs).1, (scanSign cs).2 ++ rest) := by
  cases cs with
  | nil => exact absurd rfl h
  | cons c cs =>
      rw [List.cons_append]
      unfold scanSign
      split
      · simp_all
      · simp_all
      · split
        · simp_all
        · simp_all
        · rfl

theorem scanExponent_append {cs ds rest : List Char} (h : scanExponent cs = (ds, [])) (hrest : Stops rest) :
    scanExponent (cs ++ rest) = (ds, rest) := by
  cases cs with
  | nil =>
      obtain ⟨rfl, -⟩ := Prod.mk.inj h
      cases rest with
      | nil => rfl
      | cons c rest =>
          obtain ⟨-, -, he, hE⟩ := hrest c rfl
          rw [List.nil_append, scanExponent, if_neg (by simp [he, hE])]
  | cons e cs =>
      rw [scanExponent] at h
      split at h
      · rename_i he
        split at h
        · rename_i c cs' hsign
          split at h
          · rename_i hdigit
            obtain ⟨rfl, hdrop⟩ := Prod.mk.inj h
            have happend := scanSign_append cs (by rw [hsign]; exact List.cons_ne_nil _ _) rest
            have hstop : cs'.dropWhile Char.isDigit = [] → ∀ c ∈ rest.head?, c.isDigit = false :=
              fun _ c hc => (hrest c hc).1
            obtain ⟨htake', hdrop'⟩ := span_append rest hstop
            rw [List.cons_append, scanExponent, if_pos he, happend, hsign]
            simp only [List.cons_append, hdigit, ↓reduceIte, htake', hdrop', hdrop, List.nil_append]
          · cases h
        · cases h
      · cases h

theorem scanUnsigned_append {negative : Bool} {cs rest : List Char} {m : Numeral}
    (h : scanUnsigned negative cs = some (m, [])) (hrest : Stops rest) :
    scanUnsigned negative (cs ++ rest) = some (m, rest) := by
  unfold scanUnsigned at h ⊢
  cases hint : scanInteger cs with
  | none =>
      rw [hint] at h
      cases h
  | some p =>
      obtain ⟨digits, t⟩ := p
      rw [hint] at h
      have hm : (⟨negative, digits, (scanFraction t).1 ++ (scanExponent (scanFraction t).2).1⟩ : Numeral) = m :=
        (Prod.mk.inj (Option.some.inj h)).1
      have hexp : (scanExponent (scanFraction t).2).2 = [] := (Prod.mk.inj (Option.some.inj h)).2
      have hfraction : scanFraction (t ++ rest) = ((scanFraction t).1, (scanFraction t).2 ++ rest) := by
        refine scanFraction_append rfl (fun hdot => ?_) fun _ => hrest
        rw [hdot] at hexp
        cases hexp
      have hexponent := scanExponent_append (Prod.ext rfl hexp) hrest
      rw [scanInteger_append hint fun _ => hrest]
      simp only [hfraction, hexponent, ← hm]

theorem scanNumeral_of_ne {c : Char} {cs : List Char} (h : c ≠ '-') :
    scanNumeral (c :: cs) = scanUnsigned false (c :: cs) := by
  unfold scanNumeral
  split
  · simp_all
  · rfl

theorem scanNumeral_append {cs rest : List Char} {m : Numeral} (h : scanNumeral cs = some (m, []))
    (hrest : Stops rest) : scanNumeral (cs ++ rest) = some (m, rest) := by
  cases cs with
  | nil => cases h
  | cons c cs =>
      by_cases hc : c = '-'
      · subst hc
        exact scanUnsigned_append h hrest
      · rw [scanNumeral_of_ne hc] at h
        rw [List.cons_append, scanNumeral_of_ne hc]
        exact scanUnsigned_append h hrest

/-- The first digit of a positive number is not zero. -/
theorem toDigits_head (n : Nat) (hn : 0 < n) : ∃ c cs, Nat.toDigits 10 n = c :: cs ∧ c ≠ '0' := by
  induction n using Nat.strongRecOn with
  | _ n ih =>
      rcases Nat.lt_or_ge n 10 with hlt | hge
      · refine ⟨Nat.digitChar n, [], Nat.toDigits_of_lt_base hlt, ?_⟩
        have hdigit : ∀ d < 10, 0 < d → Nat.digitChar d ≠ '0' := by decide
        exact hdigit n hlt hn
      · obtain ⟨c, cs, hcs, hc⟩ := ih (n / 10) (by omega) (by omega)
        exact ⟨c, cs ++ [Nat.digitChar (n % 10)], by rw [Nat.toDigits_of_base_le (by decide) hge, hcs]; rfl, hc⟩

theorem scanInteger_toDigits (n : Nat) : scanInteger (Nat.toDigits 10 n) = some (Nat.toDigits 10 n, []) := by
  rcases Nat.eq_zero_or_pos n with rfl | hn
  · rfl
  · obtain ⟨c, cs, hcs, hc⟩ := toDigits_head n hn
    have hdigits : ∀ d ∈ c :: cs, d.isDigit = true := fun d hd =>
      Nat.isDigit_of_mem_toDigits (b := 10) (n := n) (by decide) (by decide) (by rw [hcs]; exact hd)
    obtain ⟨hdigit, htail⟩ := List.forall_mem_cons.mp hdigits
    rw [hcs, scanInteger, if_pos hdigit, List.takeWhile_eq_self_iff.mpr htail, List.dropWhile_eq_nil_iff.mpr htail]
    exact fun hzero => hc hzero

theorem scanNumeral_intChars (n : Int) : ∃ m : Numeral,
    scanNumeral (intChars n) = some (m, []) ∧ m.rest = [] ∧ m.toInt = n := by
  cases n with
  | ofNat n =>
      refine ⟨⟨false, Nat.toDigits 10 n, []⟩, ?_, rfl, ?_⟩
      · have hne : ∀ c cs, Nat.toDigits 10 n = c :: cs → c ≠ '-' := by
          rintro c cs hcs rfl
          have hdigit := Nat.isDigit_of_mem_toDigits (b := 10) (n := n) (c := '-') (by decide) (by decide)
            (by rw [hcs]; exact List.mem_cons_self)
          revert hdigit
          decide
        have hscan : scanUnsigned false (Nat.toDigits 10 n) = some (⟨false, Nat.toDigits 10 n, []⟩, []) := by
          rw [scanUnsigned, scanInteger_toDigits]
          rfl
        cases hcs : Nat.toDigits 10 n with
        | nil =>
            rw [hcs] at hscan
            cases hscan
        | cons c cs =>
            rw [hcs] at hscan
            change scanNumeral (Nat.toDigits 10 n) = _
            rw [hcs, scanNumeral_of_ne (hne c cs hcs)]
            exact hscan
      · simp [Numeral.toInt, Nat.ofDigitChars_ten_toDigits]
  | negSucc n =>
      refine ⟨⟨true, Nat.toDigits 10 (n + 1), []⟩, ?_, rfl, ?_⟩
      · change scanUnsigned true (Nat.toDigits 10 (n + 1)) = _
        rw [scanUnsigned, scanInteger_toDigits]
        rfl
      · simp only [Numeral.toInt, Nat.ofDigitChars_ten_toDigits, ↓reduceIte]
        rfl

section RoundTrip

variable {φ : Type} {F : FloatFormat φ} {style : Style}

theorem readNumber_int (n : Int) {rest : List Char} (hrest : Stops rest) :
    readNumber F (intChars n ++ rest) = some (.int n, rest) := by
  obtain ⟨m, hscan, hm, hn⟩ := scanNumeral_intChars n
  rw [readNumber, scanNumeral_append hscan hrest]
  simp only [hm, ↓reduceIte, hn]

theorem readNumber_float (x : φ) {rest : List Char} (hrest : Stops rest) :
    readNumber F (F.repr x ++ rest) = some (.float x, rest) := by
  obtain ⟨m, hscan, hm, hchars⟩ := F.scan_repr x
  rw [readNumber, scanNumeral_append hscan hrest]
  simp only [hm, ↓reduceIte, hchars, F.parse_repr]

/-- The text of a number begins like one. -/
def NumberHead (c : Char) : Prop := c.isDigit = true ∨ c = '-'

theorem numberHead_of_scan {cs : List Char} {p : Numeral × List Char} (h : scanNumeral cs = some p) :
    ∃ c t, cs = c :: t ∧ NumberHead c := by
  cases cs with
  | nil => cases h
  | cons c cs =>
      refine ⟨c, cs, rfl, ?_⟩
      by_cases hc : c = '-'
      · exact Or.inr hc
      · rw [scanNumeral_of_ne hc, scanUnsigned] at h
        by_cases hzero : c = '0'
        · exact Or.inl (by rw [hzero]; rfl)
        · rw [scanInteger] at h
          · split at h
            · rename_i hint
              split at hint
              · rename_i hdigit
                exact Or.inl hdigit
              · cases hint
            · cases h
          · exact fun h0 => hzero h0

theorem readValue_number (n : Nat) {cs : List Char} {p : Numeral × List Char} (h : scanNumeral cs = some p) :
    readValue F (n + 1) cs = readNumber F cs := by
  rw [readValue]
  all_goals
    rintro t rfl
    simp [scanNumeral, scanUnsigned, scanInteger] at h

theorem skipBlanks_append {blanks : List Char} (hblanks : blanks.all isBlank = true) {c : Char} {cs : List Char}
    (hc : isBlank c = false) : skipBlanks (blanks ++ c :: cs) = c :: cs := by
  rw [skipBlanks, List.dropWhile_append_of_pos (List.all_eq_true.mp hblanks), List.dropWhile_cons, hc]
  rfl

theorem skipBlanks_cons {c : Char} (hc : isBlank c = false) (cs : List Char) : skipBlanks (c :: cs) = c :: cs :=
  skipBlanks_append (List.all_nil) hc

theorem newline_blank (level : Nat) : (style.newline level).all isBlank = true := by
  unfold Style.newline
  split
  · rw [List.all_cons, List.all_replicate]
    split <;> rfl
  · rfl

theorem gap_blank (level : Nat) : (style.gap level).all isBlank = true := by
  rw [Style.gap, List.all_append, style.itemGap_blank, newline_blank]
  rfl

/-- What ends the text of a value inside another one. -/
theorem stops_newline {c : Char} (hc : c = ']' ∨ c = '}') (level : Nat) (rest : List Char) :
    Stops (style.newline level ++ c :: rest) := by
  unfold Style.newline
  split
  · exact stops_cons (by decide) (by decide) (by decide) (by decide)
  · rcases hc with rfl | rfl <;> exact stops_cons (by decide) (by decide) (by decide) (by decide)

theorem stops_writeItems (xs : List (Value String φ)) (level : Nat) {rest : List Char} (hrest : Stops rest) :
    Stops (writeItems F style level xs ++ rest) := by
  cases xs with
  | nil => exact hrest
  | cons x xs => exact stops_cons (by decide) (by decide) (by decide) (by decide)

theorem stops_writeMembers (kvs : List (String × Value String φ)) (level : Nat) {rest : List Char}
    (hrest : Stops rest) : Stops (writeMembers F style level kvs ++ rest) := by
  cases kvs with
  | nil => exact hrest
  | cons kv kvs => exact stops_cons (by decide) (by decide) (by decide) (by decide)

/-- The text of a value begins with no blank and with no closing bracket. -/
def ValueHead (c : Char) : Prop := isBlank c = false ∧ c ≠ ']' ∧ c ≠ '}'

theorem NumberHead.valueHead {c : Char} (h : NumberHead c) : ValueHead c := by
  rcases h with h | rfl
  · refine ⟨?_, ?_, ?_⟩
    · by_contra hblank
      simp only [Bool.not_eq_false, isBlank, Bool.or_eq_true, decide_eq_true_eq] at hblank
      rcases hblank with ((rfl | rfl) | rfl) | rfl <;> revert h <;> decide
    · rintro rfl
      revert h
      decide
    · rintro rfl
      revert h
      decide
  · exact ⟨by decide, by decide, by decide⟩

theorem write_head (v : Value String φ) (level : Nat) : ∃ c cs, write F style level v = c :: cs ∧ ValueHead c := by
  have hpunct : ∀ c ∈ ['n', 't', 'f', 'N', 'I', '-', '"', '[', '{'], ValueHead c := by
    intro c hc
    simp only [List.mem_cons, List.not_mem_nil, or_false] at hc
    rcases hc with rfl | rfl | rfl | rfl | rfl | rfl | rfl | rfl | rfl <;> exact ⟨rfl, by decide, by decide⟩
  match v with
  | .null => exact ⟨'n', _, by rw [write], hpunct _ (by decide)⟩
  | .bool true => exact ⟨'t', _, by rw [write], hpunct _ (by decide)⟩
  | .bool false => exact ⟨'f', _, by rw [write], hpunct _ (by decide)⟩
  | .int n =>
      obtain ⟨m, hscan, -⟩ := scanNumeral_intChars n
      obtain ⟨c, cs, hcs, hc⟩ := numberHead_of_scan hscan
      exact ⟨c, cs, by rw [write, hcs], hc.valueHead⟩
  | .float x =>
      obtain ⟨m, hscan, -⟩ := F.scan_repr x
      obtain ⟨c, cs, hcs, hc⟩ := numberHead_of_scan hscan
      exact ⟨c, cs, by rw [write, hcs], hc.valueHead⟩
  | .special .nan => exact ⟨'N', _, by rw [write, Special.chars], hpunct _ (by decide)⟩
  | .special .infinity => exact ⟨'I', _, by rw [write, Special.chars], hpunct _ (by decide)⟩
  | .special .negInfinity => exact ⟨'-', _, by rw [write, Special.chars], hpunct _ (by decide)⟩
  | .str s => exact ⟨'"', _, by rw [write, quote]; rfl, hpunct _ (by decide)⟩
  | .arr [] => exact ⟨'[', _, by rw [write], hpunct _ (by decide)⟩
  | .arr (x :: xs) => exact ⟨'[', _, by rw [write], hpunct _ (by decide)⟩
  | .obj [] => exact ⟨'{', _, by rw [write], hpunct _ (by decide)⟩
  | .obj ((k, x) :: kvs) => exact ⟨'{', _, by rw [write], hpunct _ (by decide)⟩

theorem skipBlanks_write {blanks : List Char} (hblanks : blanks.all isBlank = true) (v : Value String φ) (level : Nat)
    (rest : List Char) :
    skipBlanks (blanks ++ (write F style level v ++ rest)) = write F style level v ++ rest := by
  obtain ⟨c, cs, hcs, hc⟩ : ∃ c cs, write F style level v = c :: cs ∧ ValueHead c := write_head v level
  rw [hcs, List.cons_append, skipBlanks_append hblanks hc.1]

/-- An object of distinct keys is the list of its pairs. -/
theorem objectOf_nodup {kvs : List (Units × Value Units φ)} (h : (kvs.map Prod.fst).Nodup) : objectOf kvs = kvs := by
  have hassign : ∀ (k : Units) (v : Value Units φ) (d : List (Units × Value Units φ)), k ∉ d.map Prod.fst →
      Dict.assign k v d = d ++ [(k, v)] := by
    intro k v d
    induction d with
    | nil => intro _; rfl
    | cons e d ih =>
        intro hk
        rw [List.map_cons, List.mem_cons, not_or] at hk
        rw [Dict.assign, if_neg (Ne.symm hk.1), ih hk.2]
        rfl
  have hfold : ∀ (ys d : List (Units × Value Units φ)), ((d ++ ys).map Prod.fst).Nodup →
      ys.foldl (fun d kv => Dict.assign kv.1 kv.2 d) d = d ++ ys := by
    intro ys
    induction ys with
    | nil => intro d _; simp
    | cons y ys ih =>
        intro d hd
        have hy : y.1 ∉ d.map Prod.fst := by
          rw [List.map_append, List.map_cons] at hd
          exact fun hmem => (List.nodup_append.mp hd).2.2 _ hmem _ List.mem_cons_self rfl
        rw [List.foldl_cons, hassign _ _ _ hy, ih _ (by simpa using hd)]
        simp
  exact hfold kvs [] (by simpa using h)

theorem quote_append (s : String) (rest : List Char) :
    quote s ++ rest = '"' :: (s.toList.flatMap escapeChar ++ '"' :: rest) := by
  simp [quote]

variable (F style)

def ReadsValues (n : Nat) : Prop :=
  ∀ v : Value String φ, v.WellFormed → v.depth ≤ n → ∀ level rest, Stops rest →
    readValue F n (write F style level v ++ rest) = some (v.units, rest)

def ReadsItems (n : Nat) : Prop :=
  ∀ (x : Value String φ) xs, Value.WellFormedItems (x :: xs) → Value.depthItems (x :: xs) ≤ n → ∀ level level' rest,
    readItems F n (write F style level x ++ (writeItems F style level xs ++ (style.newline level' ++ ']' :: rest))) =
      some (Value.unitsItems (x :: xs), rest)

def ReadsMembers (n : Nat) : Prop :=
  ∀ k (x : Value String φ) kvs, Value.WellFormedMembers ((k, x) :: kvs) → Value.depthMembers ((k, x) :: kvs) ≤ n →
    ∀ level level' rest,
      readMembers F n (quote k ++ (':' :: (style.keyGap ++ (write F style level x ++
        (writeMembers F style level kvs ++ (style.newline level' ++ '}' :: rest)))))) =
          some (Value.unitsMembers ((k, x) :: kvs), rest)

variable {F style}

theorem readsItems_succ {n : Nat} (hvalue : ReadsValues F style n) (hitems : ReadsItems F style n) :
    ReadsItems F style (n + 1) := by
  intro x xs hwf hdepth level level' rest
  simp only [Value.WellFormedItems] at hwf
  simp only [Value.depthItems, Nat.add_le_add_iff_right, Nat.max_le] at hdepth
  have hx := hvalue x hwf.1 hdepth.1 level
    (writeItems F style level xs ++ (style.newline level' ++ ']' :: rest))
    (stops_writeItems xs level (stops_newline (Or.inl rfl) level' rest))
  rw [readItems, hx]
  cases xs with
  | nil =>
      simp only [writeItems, List.nil_append]
      rw [skipBlanks_append (newline_blank level') (by decide)]
      rfl
  | cons y ys =>
      simp only [writeItems, List.cons_append, List.append_assoc]
      rw [skipBlanks_cons (by decide)]
      simp only [skipBlanks_write (gap_blank level)]
      rw [hitems y ys hwf.2 hdepth.2 level level' rest]
      simp only [Value.unitsItems]

theorem readsMembers_succ {n : Nat} (hvalue : ReadsValues F style n) (hmembers : ReadsMembers F style n) :
    ReadsMembers F style (n + 1) := by
  intro k x kvs hwf hdepth level level' rest
  simp only [Value.WellFormedMembers] at hwf
  simp only [Value.depthMembers, Nat.add_le_add_iff_right, Nat.max_le] at hdepth
  have hx := hvalue x hwf.1 hdepth.1 level
    (writeMembers F style level kvs ++ (style.newline level' ++ '}' :: rest))
    (stops_writeMembers kvs level (stops_newline (Or.inr rfl) level' rest))
  rw [quote_append, readMembers, readString_quoted]
  simp only
  rw [skipBlanks_cons (by decide)]
  simp only [skipBlanks_write style.keyGap_blank, hx]
  cases kvs with
  | nil =>
      simp only [writeMembers, List.nil_append]
      rw [skipBlanks_append (newline_blank level') (by decide)]
      rfl
  | cons kv kvs =>
      obtain ⟨k', y⟩ := kv
      have hgap : ∀ cs, skipBlanks (style.gap level ++ (quote k' ++ cs)) = quote k' ++ cs := by
        intro cs
        rw [quote_append, skipBlanks_append (gap_blank level) (by decide)]
      simp only [writeMembers, List.cons_append, List.append_assoc]
      rw [skipBlanks_cons (by decide)]
      simp only [hgap]
      rw [hmembers k' y kvs hwf.2 hdepth.2 level level' rest]
      simp only [Value.unitsMembers]

theorem readsValues_succ {n : Nat} (hitems : ReadsItems F style n) (hmembers : ReadsMembers F style n) :
    ReadsValues F style (n + 1) := by
  intro v hwf hdepth level rest hrest
  match v with
  | .null => rw [write]; rfl
  | .bool true => rw [write]; rfl
  | .bool false => rw [write]; rfl
  | .int i =>
      obtain ⟨m, hscan, -⟩ := scanNumeral_intChars i
      rw [write, readValue_number n (scanNumeral_append hscan hrest), readNumber_int i hrest, Value.units]
  | .float x =>
      obtain ⟨m, hscan, -⟩ := F.scan_repr x
      rw [write, readValue_number n (scanNumeral_append hscan hrest), readNumber_float x hrest, Value.units]
  | .special .nan => rw [write]; rfl
  | .special .infinity => rw [write]; rfl
  | .special .negInfinity => rw [write]; rfl
  | .str s =>
      rw [write, quote_append, readValue]
      simp only [readString_quoted, Value.units]
  | .arr [] => rw [write]; rfl
  | .obj [] => rw [write]; rfl
  | .arr (x :: xs) =>
      simp only [Value.WellFormed] at hwf
      simp only [Value.depth, Nat.add_le_add_iff_right] at hdepth
      obtain ⟨c, cs, hcs, hc⟩ : ∃ c cs, write F style (level + 1) x = c :: cs ∧ ValueHead c :=
        write_head x (level + 1)
      have hread := hitems x xs hwf hdepth (level + 1) level rest
      simp only [write, List.cons_append, List.append_assoc, List.nil_append]
      rw [readValue, skipBlanks_write (newline_blank (level + 1))]
      rw [hcs, List.cons_append] at hread ⊢
      split
      · rename_i heq
        exact absurd (List.cons.inj heq).1 hc.2.1
      · rw [hread]
        simp only [Value.units]
  | .obj ((k, x) :: kvs) =>
      simp only [Value.WellFormed] at hwf
      simp only [Value.depth, Nat.add_le_add_iff_right] at hdepth
      have hread := hmembers k x kvs hwf.2 hdepth (level + 1) level rest
      simp only [write, List.cons_append, List.append_assoc, List.nil_append]
      rw [quote_append] at hread ⊢
      rw [readValue, skipBlanks_append (newline_blank (level + 1)) (by decide)]
      split
      · rename_i heq
        exact absurd (List.cons.inj heq).1 (by decide)
      · rw [hread]
        simp only [Value.units]
        rw [objectOf_nodup]
        rw [Value.keys_unitsMembers]
        exact hwf.1.map Units.ofString_injective

theorem reads_write (n : Nat) : ReadsValues F style n ∧ ReadsItems F style n ∧ ReadsMembers F style n := by
  induction n with
  | zero =>
      refine ⟨fun v _ hdepth => ?_, fun x xs _ hdepth => ?_, fun k x kvs _ hdepth => ?_⟩
      · cases v <;> simp [Value.depth] at hdepth
      · simp [Value.depthItems] at hdepth
      · simp [Value.depthMembers] at hdepth
  | succ n ih =>
      obtain ⟨hvalue, hitems, hmembers⟩ := ih
      exact ⟨readsValues_succ hitems hmembers, readsItems_succ hvalue hitems, readsMembers_succ hvalue hmembers⟩

end RoundTrip

end JsonText
