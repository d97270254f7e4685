import Mathlib.Data.List.Infix
import OciHelper.Lib.Text

/-!
# Searching texts of words

* `from?` : a text from the first occurrence of another one;
* `from?_append`, `from?_of_infix` : a part in which no occurrence starts is passed over, and one with an occurrence is not;
* `from?_word`, `from?_word_blank` : a word with a blank after it, when a text without blanks is searched for and when
  one that ends in its only blank is;
* `spaced` : words with a blank after each; `fields_spaced` : the words between white space.
-/

namespace Words
open Text

def from? (sub : List Char) : List Char → Option (List Char)
  | [] => if sub = [] then some [] else none
  | c :: cs => if sub <+: c :: cs then some (c :: cs) else from? sub cs

theorem from?_of_prefix {sub s : List Char} (hne : sub ≠ []) (h : sub <+: s) : from? sub s = some s := by
  cases s with
  | nil => exact absurd (List.prefix_nil.mp h) hne
  | cons c cs => rw [from?, if_pos h]

theorem from?_append {sub a t : List Char} (h : ∀ y, y <:+ a → y ≠ [] → ¬ sub <+: y ++ t) :
    from? sub (a ++ t) = from? sub t := by
  induction a with
  | nil => rfl
  | cons c a ih =>
    have hhere := h (c :: a) (List.suffix_refl _) (List.cons_ne_nil c a)
    rw [List.cons_append] at hhere ⊢
    rw [from?, if_neg hhere]
    exact ih fun y hy hne => h y (hy.trans (List.suffix_cons c a)) hne

/-- A text without the blank is found before it. -/
theorem prefix_of_notMem {b : Char} {sub y t : List Char} (hsub : b ∉ sub) (h : sub <+: y ++ b :: t) : sub <+: y := by
  induction y generalizing sub with
  | nil =>
    cases sub with
    | nil => exact List.prefix_refl []
    | cons c sub =>
      obtain ⟨rfl, -⟩ := List.cons_prefix_cons.mp h
      exact absurd (List.mem_cons_self ..) hsub
  | cons c y ih =>
    cases sub with
    | nil => exact List.nil_prefix
    | cons d sub =>
      obtain ⟨rfl, hrest⟩ := List.cons_prefix_cons.mp h
      exact List.cons_prefix_cons.mpr ⟨rfl, ih (fun hmem => hsub (List.mem_cons_of_mem _ hmem)) hrest⟩

/-- A text that ends in the blank is found where the blank is. -/
theorem eq_of_prefix_blank {b : Char} {sub y t : List Char} (hsub : b ∉ sub) (hy : b ∉ y)
    (h : sub ++ [b] <+: y ++ b :: t) : sub = y := by
  induction y generalizing sub with
  | nil =>
    cases sub with
    | nil => rfl
    | cons c sub =>
      obtain ⟨rfl, -⟩ := List.cons_prefix_cons.mp h
      exact absurd (List.mem_cons_self ..) hsub
  | cons c y ih =>
    obtain ⟨hc, hys⟩ : b ≠ c ∧ b ∉ y := by simpa using hy
    cases sub with
    | nil =>
      obtain ⟨rfl, -⟩ := List.cons_prefix_cons.mp h
      exact absurd rfl hc
    | cons d sub =>
      obtain ⟨rfl, hrest⟩ := List.cons_prefix_cons.mp h
      rw [ih (fun hmem => hsub (List.mem_cons_of_mem _ hmem)) hys hrest]

theorem suffix_concat_cases {b : Char} {w y : List Char} (h : y <:+ w ++ [b]) (hne : y ≠ []) :
    ∃ z, z <:+ w ∧ y = z ++ [b] := by
  rcases List.eq_nil_or_concat y with rfl | ⟨z, c, rfl⟩
  · exact absurd rfl hne
  · obtain ⟨pre, hpre⟩ := h
    rw [List.concat_eq_append, ← List.append_assoc] at hpre
    rw [List.concat_eq_append]
    obtain ⟨hw, hb⟩ := List.append_inj' hpre rfl
    exact ⟨z, ⟨pre, hw⟩, by simpa using hb⟩

theorem from?_word {b : Char} {sub w : List Char} (hsub : b ∉ sub) (h : ¬ sub <:+: w) (t : List Char) :
    from? sub (w ++ b :: t) = from? sub t := by
  rw [List.append_cons]
  apply from?_append
  intro y hy hne hocc
  obtain ⟨z, hz, rfl⟩ := suffix_concat_cases hy hne
  rw [List.append_assoc] at hocc
  exact h ((prefix_of_notMem hsub hocc).isInfix.trans hz.isInfix)

theorem from?_word_blank {b : Char} {sub w : List Char} (hsub : b ∉ sub) (hw : b ∉ w) (h : ¬ sub <:+ w) (t : List Char) :
    from? (sub ++ [b]) (w ++ b :: t) = from? (sub ++ [b]) t := by
  rw [List.append_cons w]
  apply from?_append
  intro y hy hne hocc
  obtain ⟨z, hz, rfl⟩ := suffix_concat_cases hy hne
  rw [List.append_assoc] at hocc
  have heq := eq_of_prefix_blank hsub (fun hmem => hw (hz.subset hmem)) hocc
  exact h (heq ▸ hz)

/-- A word that ends in the text, with the blank after it. -/
theorem from?_word_blank_of_suffix {b : Char} {sub w : List Char} (hsub : b ∉ sub) (hw : b ∉ w) (h : sub <:+ w)
    (t : List Char) : from? (sub ++ [b]) (w ++ b :: t) = some (sub ++ b :: t) := by
  obtain ⟨pre, rfl⟩ := h
  have hskip : from? (sub ++ [b]) (pre ++ (sub ++ b :: t)) = from? (sub ++ [b]) (sub ++ b :: t) := by
    apply from?_append
    intro y hy hne hocc
    have hmem : b ∉ y ++ sub := fun hmem => hw (by
      rcases List.mem_append.mp hmem with hmem | hmem
      · exact List.mem_append_left _ (hy.subset hmem)
      · exact List.mem_append_right _ hmem)
    rw [← List.append_assoc] at hocc
    have hlen := congrArg List.length (eq_of_prefix_blank hsub hmem hocc)
    have hpos := List.length_pos_iff.mpr hne
    rw [List.length_append] at hlen
    omega
  rw [List.append_assoc, hskip]
  exact from?_of_prefix (by simp) ⟨t, by simp⟩

theorem from?_of_notMem {b : Char} {sub s : List Char} (hsub : b ∈ sub) (h : b ∉ s) : from? sub s = none := by
  induction s with
  | nil =>
    rw [from?, if_neg]
    rintro rfl
    exact absurd hsub List.not_mem_nil
  | cons c cs ih =>
    rw [from?, if_neg fun hocc => h (hocc.subset hsub)]
    exact ih fun hmem => h (List.mem_cons_of_mem _ hmem)

/-- A text that occurs in a part is found in it, whatever follows. -/
theorem from?_of_infix {sub a : List Char} (hne : sub ≠ []) (h : sub <:+: a) :
    ∃ rest, rest <:+ a ∧ ∀ t, from? sub (a ++ t) = some (sub ++ (rest ++ t)) := by
  induction a with
  | nil => exact absurd (List.infix_nil.mp h) hne
  | cons c a ih =>
    by_cases hocc : sub <+: c :: a
    · obtain ⟨rest, hrest⟩ := hocc
      refine ⟨rest, ⟨sub, hrest⟩, fun t => ?_⟩
      rw [← hrest, List.append_assoc]
      exact from?_of_prefix hne (List.prefix_append ..)
    · have hin : sub <:+: a := (List.infix_cons_iff.mp h).resolve_left hocc
      obtain ⟨rest, hrest, hfrom⟩ := ih hin
      refine ⟨rest, hrest.trans (List.suffix_cons c a), fun t => ?_⟩
      -- an occurrence that starts here would be longer than the rest of the part
      have hnot : ¬ sub <+: c :: (a ++ t) := by
        intro hlong
        apply hocc
        apply List.prefix_of_prefix_length_le hlong (List.prefix_append (c :: a) t)
        have := hin.length_le
        rw [List.length_cons]
        omega
      rw [List.cons_append, from?, if_neg hnot, hfrom t]

/-! ## Words with a blank after each -/

def spaced (ws : List (List Char)) : List Char := ws.flatMap (· ++ [' '])

@[simp] theorem spaced_nil : spaced [] = [] := rfl

@[simp] theorem spaced_cons (w : List Char) (ws : List (List Char)) : spaced (w :: ws) = w ++ ' ' :: spaced ws := by
  simp [spaced]

@[simp] theorem spaced_append (ws vs : List (List Char)) : spaced (ws ++ vs) = spaced ws ++ spaced vs := by
  simp [spaced]

theorem from?_spaced {sub : List Char} (hsub : ' ' ∉ sub) {ws : List (List Char)} (h : ∀ w ∈ ws, ¬ sub <:+: w)
    (t : List Char) : from? sub (spaced ws ++ t) = from? sub t := by
  induction ws with
  | nil => rfl
  | cons w ws ih =>
    obtain ⟨hw, hws⟩ := List.forall_mem_cons.mp h
    rw [spaced_cons, List.append_assoc, List.cons_append, from?_word hsub hw, ih hws]

/-- The first word that ends in the text. -/
theorem from?_spaced_blank {sub : List Char} (hsub : ' ' ∉ sub) {ws : List (List Char)} (h : ∀ w ∈ ws, ' ' ∉ w)
    (t : List Char) :
    from? (sub ++ [' ']) (spaced ws ++ t) =
      match ws.dropWhile (fun w => ¬ sub <:+ w) with
      | [] => from? (sub ++ [' ']) t
      | _ :: rest => some (sub ++ ' ' :: (spaced rest ++ t)) := by
  induction ws with
  | nil => rfl
  | cons w ws ih =>
    obtain ⟨hw, hws⟩ := List.forall_mem_cons.mp h
    rw [spaced_cons, List.append_assoc, List.cons_append]
    by_cases hsuffix : sub <:+ w
    · rw [from?_word_blank_of_suffix hsub hw hsuffix, List.dropWhile_cons_of_neg (by simpa using hsuffix)]
    · rw [from?_word_blank hsub hw hsuffix, ih hws, List.dropWhile_cons_of_pos (by simpa using hsuffix)]

/-- A word is not empty and has no white space in it. -/
def IsWord (w : List Char) : Prop := w ≠ [] ∧ ∀ c ∈ w, isSpace c = false

instance : DecidablePred IsWord := fun w =>
  decidable_of_iff (w ≠ [] ∧ w.all (! isSpace ·) = true) (by simp [IsWord])

theorem IsWord.notMem_blank {w : List Char} (h : IsWord w) : ' ' ∉ w := fun hmem => absurd (h.2 ' ' hmem) (by decide)

theorem fields_spaced {ws : List (List Char)} (h : ∀ w ∈ ws, IsWord w) (t : List Char) :
    fields (spaced ws ++ t) = ws ++ fields t := by
  induction ws with
  | nil => rfl
  | cons w ws ih =>
    obtain ⟨hw, hws⟩ := List.forall_mem_cons.mp h
    rw [spaced_cons, List.append_assoc, List.cons_append, fields_word_append hw.1 hw.2 (by decide), ih hws]
    rfl

end Words
