import Mathlib.Data.List.TakeWhile
import Hailcast.Lib.JsonText

/-!
# Line ends in JSON texts

A file that is opened as text is read with its line ends translated to `\n`. A JSON text that has been written has no
other line end.
-/

namespace JsonText

/-- `newline=None` of `open`: `\r\n` and a lone `\r` are read as `\n`. -/
def universalNewlines : List Char → List Char
  | [] => []
  | '\r' :: '\n' :: cs => '\n' :: universalNewlines cs
  | '\r' :: cs => '\n' :: universalNewlines cs
  | c :: cs => c :: universalNewlines cs

theorem universalNewlines_eq_self {cs : List Char} (h : '\r' ∉ cs) : universalNewlines cs = cs := by
  fun_induction universalNewlines cs with
  | case1 => rfl
  | case2 cs ih => simp at h
  | case3 cs _ ih => simp at h
  | case4 c cs _ _ ih => rw [ih fun hmem => h (List.mem_cons_of_mem _ hmem)]

/-! ## Numbers -/

/-- The characters of numbers. -/
def IsNumeral (c : Char) : Prop := c.isDigit = true ∨ c = '-' ∨ c = '+' ∨ c = '.' ∨ c = 'e' ∨ c = 'E'

theorem isNumeral_takeWhile {cs : List Char} : ∀ c ∈ cs.takeWhile Char.isDigit, IsNumeral c :=
  fun _ hc => Or.inl (List.mem_takeWhile_imp hc)

theorem isNumeral_scanInteger {cs ds t : List Char} (h : scanInteger cs = some (ds, t)) : ∀ c ∈ ds, IsNumeral c := by
  unfold scanInteger at h
  split at h
  · cases h
    simp [IsNumeral]
  · split at h
    · rename_i c cs _ hdigit
      cases h
      exact List.forall_mem_cons.mpr ⟨Or.inl hdigit, isNumeral_takeWhile⟩
    · cases h
  · cases h

theorem isNumeral_scanFraction (cs : List Char) : ∀ c ∈ (scanFraction cs).1, IsNumeral c := by
  unfold scanFraction
  split
  · split
    · rename_i hdigit
      exact List.forall_mem_cons.mpr
        ⟨by simp [IsNumeral], List.forall_mem_cons.mpr ⟨Or.inl hdigit, isNumeral_takeWhile⟩⟩
    · simp
  · simp

theorem isNumeral_scanSign (cs : List Char) : ∀ c ∈ (scanSign cs).1, IsNumeral c := by
  unfold scanSign
  split <;> simp [IsNumeral]

theorem isNumeral_scanExponent (cs : List Char) : ∀ c ∈ (scanExponent cs).1, IsNumeral c := by
  unfold scanExponent
  split
  · rename_i e cs
    split
    · rename_i he
      have hhead : IsNumeral e := by rcases he with rfl | rfl <;> simp [IsNumeral]
      split
      · split
        · rename_i hdigit
          refine List.forall_mem_cons.mpr ⟨hhead, List.forall_mem_append.mpr ⟨isNumeral_scanSign cs, ?_⟩⟩
          exact List.forall_mem_cons.mpr ⟨Or.inl hdigit, isNumeral_takeWhile⟩
        · simp
      · simp
    · simp
  · simp

theorem isNumeral_scanUnsigned {negative : Bool} {cs t : List Char} {m : Numeral}
    (h : scanUnsigned negative cs = some (m, t)) : ∀ c ∈ m.chars, IsNumeral c := by
  unfold scanUnsigned at h
  split at h
  · rename_i ds u hint
    cases h
    refine List.forall_mem_append.mpr ⟨List.forall_mem_append.mpr ⟨?_, isNumeral_scanInteger hint⟩, ?_⟩
    · cases negative <;> simp [IsNumeral]
    · exact List.forall_mem_append.mpr ⟨isNumeral_scanFraction u, isNumeral_scanExponent _⟩
  · cases h

theorem isNumeral_scanNumeral {cs t : List Char} {m : Numeral} (h : scanNumeral cs = some (m, t)) :
    ∀ c ∈ m.chars, IsNumeral c := by
  unfold scanNumeral at h
  split at h <;> exact isNumeral_scanUnsigned h

theorem isNumeral_intChars (n : Int) : ∀ c ∈ intChars n, IsNumeral c := by
  cases n with
  | ofNat n => exact fun c hc => Or.inl (Nat.isDigit_of_mem_toDigits (by decide) (by decide) hc)
  | negSucc n =>
      refine List.forall_mem_cons.mpr ⟨by simp [IsNumeral], fun c hc => ?_⟩
      exact Or.inl (Nat.isDigit_of_mem_toDigits (by decide) (by decide) hc)

theorem noReturn_of_isNumeral {cs : List Char} (h : ∀ c ∈ cs, IsNumeral c) : '\r' ∉ cs := by
  intro hmem
  have hc := h _ hmem
  simp [IsNumeral] at hc

/-! ## Values -/

theorem noReturn_escapeChar (c : Char) : '\r' ∉ escapeChar c := by
  have hdigit : ∀ d < 16, '\r' ≠ Nat.digitChar d := by decide
  have hhigh : c.toNat < 32 → '\r' ≠ Nat.digitChar (c.toNat / 16) := fun h => hdigit _ (by omega)
  have hlow := hdigit (c.toNat % 16) (by omega)
  by_cases hreturn : c = '\r'
  · simp [escapeChar, hreturn]
  · unfold escapeChar
    split_ifs <;> simp_all [Ne.symm hreturn]

theorem noReturn_quote (s : String) : '\r' ∉ quote s := by
  simp [quote, noReturn_escapeChar]

section Write

variable {φ : Type} {F : FloatFormat φ} {style : Style}

/-- Neither gap of the style has a line end. -/
def Style.NoReturn (style : Style) : Prop := '\r' ∉ style.itemGap ∧ '\r' ∉ style.keyGap

theorem noReturn_newline (style : Style) (level : Nat) : '\r' ∉ style.newline level := by
  unfold Style.newline
  cases style.indent <;> simp

theorem noReturn_gap (h : style.NoReturn) (level : Nat) : '\r' ∉ style.gap level := by
  simp [Style.gap, h.1, noReturn_newline]

mutual
theorem noReturn_write (h : style.NoReturn) : (v : Value String φ) → (level : Nat) → '\r' ∉ write F style level v
  | .null, _ => by simp [write]
  | .bool true, _ => by simp [write]
  | .bool false, _ => by simp [write]
  | .int n, _ => by simpa [write] using noReturn_of_isNumeral (isNumeral_intChars n)
  | .float x, _ => by
      obtain ⟨m, hscan, -, hchars⟩ := F.scan_repr x
      rw [write, ← hchars]
      exact noReturn_of_isNumeral (isNumeral_scanNumeral hscan)
  | .special x, _ => by cases x <;> simp [write, Special.chars]
  | .str s, _ => by simpa [write] using noReturn_quote s
  | .arr [], _ => by simp [write]
  | .arr (x :: xs), level => by
      simp [write, noReturn_newline, noReturn_write h x, noReturn_writeItems h xs]
  | .obj [], _ => by simp [write]
  | .obj ((k, x) :: kvs), level => by
      simp [write, noReturn_newline, noReturn_quote, h.2, noReturn_write h x, noReturn_writeMembers h kvs]

theorem noReturn_writeItems (h : style.NoReturn) :
    (xs : List (Value String φ)) → (level : Nat) → '\r' ∉ writeItems F style level xs
  | [], _ => by simp [writeItems]
  | x :: xs, level => by simp [writeItems, noReturn_gap h, noReturn_write h x, noReturn_writeItems h xs]

theorem noReturn_writeMembers (h : style.NoReturn) :
    (kvs : List (String × Value String φ)) → (level : Nat) → '\r' ∉ writeMembers F style level kvs
  | [], _ => by simp [writeMembers]
  | (k, x) :: kvs, level => by
      simp [writeMembers, noReturn_gap h, noReturn_quote, h.2, noReturn_write h x, noReturn_writeMembers h kvs]
end

theorem noReturn_dumps (h : style.NoReturn) (v : Value String φ) : '\r' ∉ (dumps F style v).toList := by
  rw [dumps, String.toList_ofList]
  exact noReturn_write h v 0

end Write

end JsonText
