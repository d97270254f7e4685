import Mathlib.Data.List.Basic

/-!
# Lexical file paths

A path is the list of its characters; slashes separate its elements.

* `Name` : an element that stands for itself; `Lexical` : a cleaned path, which is steps upwards and then names;
* `parse`, `render`, `clean`, `join` : a path as it is cleaned element by element, and back; `parse_render` : cleaning
  twice is cleaning once;
* `Inside` : a path lies strictly inside a directory; `inside_join_iff` : when one element leads there;
* `inside_of_prefix` : what a test for the prefix of the cleaned texts says;
* `absolute`, `absolute_join_inj` : the file of a path, which is another one for another name in a directory.
-/

namespace Path

/-- One element that is neither empty nor a dot or two. -/
def Name (e : List Char) : Prop := e ≠ [] ∧ '/' ∉ e ∧ e ≠ ['.'] ∧ e ≠ ['.', '.']

instance (e : List Char) : Decidable (Name e) := by
  unfold Name
  infer_instance

def up : List Char := ['.', '.']

/-- `ups` elements `..` and then names; a rooted path has none of the first. -/
@[ext] structure Lexical where
  rooted : Bool
  ups : Nat
  names : List (List Char)
  rooted_ups : rooted = true → ups = 0
  named : ∀ e ∈ names, Name e

def Lexical.start (rooted : Bool) : Lexical := ⟨rooted, 0, [], fun _ => rfl, fun _ h => absurd h List.not_mem_nil⟩

/-- One more element. -/
def Lexical.push (l : Lexical) (e : List Char) : Lexical :=
  if h : Name e then
    { l with
      names := l.names ++ [e]
      named := by
        intro f hf
        rcases List.mem_append.mp hf with hf | hf
        · exact l.named f hf
        · exact List.mem_singleton.mp hf ▸ h }
  else if e = up then
    if l.names ≠ [] then
      { l with names := l.names.dropLast, named := fun f hf => l.named f (List.dropLast_subset _ hf) }
    -- nothing is above the root
    else if h : l.rooted then l
    else { l with ups := l.ups + 1, rooted_ups := fun hr => absurd hr h }
  else l

def parse (s : List Char) : Lexical :=
  (s.splitOn '/').foldl Lexical.push (.start (s.head? == some '/'))

/-- The elements of an unrooted path. -/
def Lexical.elems (l : Lexical) : List (List Char) := List.replicate l.ups up ++ l.names

def Lexical.render (l : Lexical) : List Char :=
  if l.rooted then '/' :: ['/'].intercalate l.names
  else if l.elems = [] then ['.']
  else ['/'].intercalate l.elems

/-- `filepath.Clean` -/
def clean (s : List Char) : List Char := (parse s).render

/-- `filepath.Join`, of two paths. -/
def join (dir s : List Char) : List Char :=
  if dir ≠ [] then clean (dir ++ '/' :: s) else if s ≠ [] then clean s else []

def isAbs (s : List Char) : Bool := s.head? == some '/'

/-! ## Elements one after another -/

theorem not_name_up : ¬ Name up := fun h => h.2.2.2 rfl

theorem push_name (l : Lexical) {e : List Char} (h : Name e) :
    (l.push e).rooted = l.rooted ∧ (l.push e).ups = l.ups ∧ (l.push e).names = l.names ++ [e] := by
  unfold Lexical.push
  rw [dif_pos h]
  exact ⟨rfl, rfl, rfl⟩

theorem push_empty (l : Lexical) : l.push [] = l := by
  unfold Lexical.push
  rw [dif_neg fun h => h.1 rfl, if_neg (by decide)]

theorem push_dot (l : Lexical) : l.push ['.'] = l := by
  unfold Lexical.push
  rw [dif_neg fun h => h.2.2.1 rfl, if_neg (by decide)]

theorem foldl_push_names (es : List (List Char)) (h : ∀ e ∈ es, Name e) (l : Lexical) :
    (es.foldl Lexical.push l).rooted = l.rooted ∧ (es.foldl Lexical.push l).ups = l.ups ∧
      (es.foldl Lexical.push l).names = l.names ++ es := by
  induction es generalizing l with
  | nil => exact ⟨rfl, rfl, (List.append_nil _).symm⟩
  | cons e es ih =>
    obtain ⟨hr, hu, hn⟩ := push_name l (h e (.head _))
    obtain ⟨hr', hu', hn'⟩ := ih (fun f hf => h f (.tail _ hf)) (l.push e)
    exact ⟨hr'.trans hr, hu'.trans hu, by rw [List.foldl_cons, hn', hn, List.append_assoc, List.singleton_append]⟩

theorem foldl_push_ups (n : Nat) (l : Lexical) (hr : l.rooted = false) (hn : l.names = []) :
    ((List.replicate n up).foldl Lexical.push l).rooted = false ∧
      ((List.replicate n up).foldl Lexical.push l).ups = l.ups + n ∧
      ((List.replicate n up).foldl Lexical.push l).names = [] := by
  induction n generalizing l with
  | zero => exact ⟨hr, rfl, hn⟩
  | succ n ih =>
    have hpush : (l.push up).rooted = false ∧ (l.push up).ups = l.ups + 1 ∧ (l.push up).names = [] := by
      unfold Lexical.push
      rw [dif_neg not_name_up, if_pos rfl, if_neg (not_not.mpr hn), dif_neg (by rw [hr]; exact Bool.false_ne_true)]
      exact ⟨hr, rfl, hn⟩
    obtain ⟨hr', hu', hn'⟩ := ih (l.push up) hpush.1 hpush.2.2
    refine ⟨hr', ?_, hn'⟩
    rw [List.replicate_succ, List.foldl_cons, hu', hpush.2.1]
    omega

/-- A path is read on from its first part. -/
theorem parse_append {s : List Char} (hs : s ≠ []) (t : List Char) :
    parse (s ++ '/' :: t) = (t.splitOn '/').foldl Lexical.push (parse s) := by
  unfold parse
  rw [List.splitOn_append_cons_self, List.foldl_append, List.head?_append_of_ne_nil _ hs]

/-! ## Cleaned paths -/

theorem slash_notMem_elems (l : Lexical) : ∀ e ∈ l.elems, '/' ∉ e := by
  intro e he
  rcases List.mem_append.mp he with he | he
  · rw [(List.mem_replicate.mp he).2]
    decide
  · exact (l.named e he).2.1

theorem splitOn_cons_slash (s : List Char) : ('/' :: s).splitOn '/' = [] :: s.splitOn '/' :=
  List.splitOn_append_cons_self [] s

theorem splitOn_render_rooted {l : Lexical} (h : l.rooted = true) :
    l.render.splitOn '/' = [] :: if l.names = [] then [[]] else l.names := by
  unfold Lexical.render
  rw [if_pos h, splitOn_cons_slash]
  split
  · next hn =>
    rw [hn]
    rfl
  · next hn => rw [List.splitOn_intercalate '/' (fun e he => (l.named e he).2.1) hn]

theorem splitOn_render_unrooted {l : Lexical} (h : l.rooted = false) :
    l.render.splitOn '/' = if l.elems = [] then [['.']] else l.elems := by
  unfold Lexical.render
  rw [if_neg (by rw [h]; exact Bool.false_ne_true)]
  split
  · rfl
  · next hn => exact List.splitOn_intercalate '/' (slash_notMem_elems l) hn

theorem elem_ne_nil (l : Lexical) : ∀ e ∈ l.elems, e ≠ [] := by
  intro e he
  rcases List.mem_append.mp he with he | he
  · rw [(List.mem_replicate.mp he).2]
    decide
  · exact (l.named e he).1

/-- The first part of a text is empty just when the text begins with a slash or is empty. -/
theorem head?_splitOn_slash (s : List Char) : (s.head? == some '/') = true → (s.splitOn '/').head? = some [] := by
  intro h
  cases s with
  | nil => cases h
  | cons c s =>
    obtain rfl : c = '/' := by simpa using h
    rw [splitOn_cons_slash]
    rfl

theorem isAbs_render (l : Lexical) : (l.render.head? == some '/') = l.rooted := by
  cases hr : l.rooted with
  | true =>
    unfold Lexical.render
    rw [if_pos hr]
    rfl
  | false =>
    by_contra hne
    have habs : (l.render.head? == some '/') = true := by simpa using hne
    have hhead := head?_splitOn_slash _ habs
    rw [splitOn_render_unrooted hr] at hhead
    split at hhead
    · cases hhead
    · exact elem_ne_nil l [] (List.mem_of_head? hhead) rfl

/-- A cleaned path is read as itself. -/
theorem parse_render (l : Lexical) : parse l.render = l := by
  unfold parse
  rw [isAbs_render]
  cases hr : l.rooted with
  | true =>
    rw [splitOn_render_rooted hr, List.foldl_cons, push_empty]
    split
    · next hn =>
      rw [List.foldl_cons, push_empty]
      exact Lexical.ext hr.symm (l.rooted_ups hr).symm hn.symm
    · obtain ⟨hroot, hups, hnames⟩ := foldl_push_names l.names l.named (.start true)
      exact Lexical.ext (hroot.trans hr.symm) (hups.trans (l.rooted_ups hr).symm) hnames
  | false =>
    rw [splitOn_render_unrooted hr]
    split
    · next hn =>
      obtain ⟨hups, hnames⟩ := List.append_eq_nil_iff.mp hn
      rw [List.foldl_cons, push_dot]
      exact Lexical.ext hr.symm ((List.replicate_eq_nil_iff ..).mp hups).symm hnames.symm
    · unfold Lexical.elems
      rw [List.foldl_append]
      obtain ⟨hroot, hups, hnames⟩ := foldl_push_ups l.ups (.start false) rfl rfl
      obtain ⟨hroot', hups', hnames'⟩ := foldl_push_names l.names l.named
        ((List.replicate l.ups up).foldl Lexical.push (.start false))
      refine Lexical.ext ?_ ?_ ?_
      · rw [hroot', hroot, hr]
      · rw [hups', hups]
        exact Nat.zero_add _
      · rw [hnames', hnames]
        rfl

theorem parse_clean (s : List Char) : parse (clean s) = parse s := parse_render _

/-! ## Inside a directory -/

/-- The path is the directory's, with more names after it. -/
def Inside (dir s : List Char) : Prop :=
  (parse dir).rooted = (parse s).rooted ∧ (parse dir).ups = (parse s).ups ∧
    ∃ rest, rest ≠ [] ∧ (parse s).names = (parse dir).names ++ rest

theorem not_inside_of_length {dir s : List Char} (h : (parse s).names.length ≤ (parse dir).names.length) :
    ¬ Inside dir s := by
  rintro ⟨-, -, rest, hne, he⟩
  have := congrArg List.length he
  have := List.length_pos_iff.mpr hne
  rw [List.length_append] at *
  omega

theorem length_push_le (l : Lexical) {e : List Char} (h : ¬ Name e) : (l.push e).names.length ≤ l.names.length := by
  unfold Lexical.push
  rw [dif_neg h]
  split
  · split
    · rw [List.length_dropLast]
      omega
    · split <;> exact Nat.le_refl _
  · exact Nat.le_refl _

theorem parse_single {e : List Char} (h : '/' ∉ e) : parse e = (Lexical.start false).push e := by
  unfold parse
  rw [List.splitOn_eq_singleton h]
  cases e with
  | nil => rfl
  | cons c e =>
    have hc : ((c :: e).head? == some '/') = false := by
      have hne : c ≠ '/' := fun he => h (by rw [he]; exact List.mem_cons_self ..)
      simpa using hne
    rw [hc]
    rfl

/-- Joined to a directory, one element is read after it. -/
theorem parse_join (dir : List Char) {e : List Char} (h : '/' ∉ e) : parse (join dir e) = (parse dir).push e := by
  unfold join
  split
  · next hd =>
    rw [parse_clean, parse_append hd, List.splitOn_eq_singleton h]
    rfl
  · next hd =>
    have hempty : parse dir = .start false := by
      rw [not_not.mp hd]
      exact push_empty _
    split
    · rw [parse_clean, parse_single h, hempty]
    · next he => rw [not_not.mp he, push_empty, not_not.mp hd]

theorem names_join_slash (dir : List Char) : (parse (join dir ['/'])).names.length ≤ (parse dir).names.length := by
  have hparts : ['/'].splitOn '/' = [[], []] := rfl
  unfold join
  split
  · next hd =>
    have hsame : parse (clean (dir ++ '/' :: ['/'])) = parse dir := by
      rw [parse_clean, parse_append hd, hparts, List.foldl_cons, List.foldl_cons, List.foldl_nil, push_empty,
        push_empty]
    exact Nat.le_of_eq (congrArg (fun p : Lexical => p.names.length) hsame)
  · rw [if_pos (List.cons_ne_nil _ _), parse_clean]
    exact Nat.zero_le _

/-- One element leads inside just when it is a name. -/
theorem inside_join_iff (dir : List Char) {e : List Char} (h : '/' ∉ e ∨ e = ['/']) :
    Inside dir (join dir e) ↔ Name e := by
  rcases h with h | rfl
  · by_cases hn : Name e
    · refine iff_of_true ?_ hn
      obtain ⟨hr, hu, hnames⟩ := push_name (parse dir) hn
      unfold Inside
      rw [parse_join dir h, hr, hu, hnames]
      exact ⟨rfl, rfl, [e], List.cons_ne_nil _ _, rfl⟩
    · refine iff_of_false (not_inside_of_length ?_) hn
      rw [parse_join dir h]
      exact length_push_le _ hn
  · exact iff_of_false (not_inside_of_length (names_join_slash dir)) fun hn => hn.2.1 (.head _)

theorem render_ne_nil (l : Lexical) : l.render ≠ [] := by
  intro h
  unfold Lexical.render at h
  split at h
  · cases h
  · split at h
    · cases h
    · next hne =>
      have hparts := List.splitOn_intercalate '/' (slash_notMem_elems l) hne
      rw [h] at hparts
      exact elem_ne_nil l [] (hparts ▸ List.mem_cons_self ..) rfl

/-- A directory that is only steps upwards. -/
def Upward (dir : List Char) : Prop := (parse dir).rooted = false ∧ (parse dir).ups ≠ 0 ∧ (parse dir).names = []

/-- `filepath.Abs` -/
def absolute (cwd s : List Char) : List Char := if isAbs s then clean s else join cwd s

theorem parse_join_render (cwd : List Char) {l : Lexical} (hr : l.rooted = false) (hne : l.elems ≠ []) :
    parse (join cwd l.render) = l.elems.foldl Lexical.push (parse cwd) := by
  have hsplit := splitOn_render_unrooted hr
  rw [if_neg hne] at hsplit
  unfold join
  split
  · next hd => rw [parse_clean, parse_append hd, hsplit]
  · next hd =>
    have hempty : parse cwd = .start false := by
      rw [not_not.mp hd]
      exact push_empty _
    have habs : (l.render.head? == some '/') = false := (isAbs_render l).trans hr
    rw [if_pos (render_ne_nil l), parse_clean, hempty, parse, hsplit, habs]

/-- A name in a directory is a cleaned path. -/
theorem join_eq_render (dir : List Char) {e : List Char} (he : Name e) : join dir e = ((parse dir).push e).render := by
  rw [← parse_join dir he.2.1]
  unfold join
  split
  · rw [parse_clean]
    rfl
  · rw [if_pos he.1, parse_clean]
    rfl

/-- A name in a directory is read after what only depends on the directories. -/
theorem parse_absolute_join (cwd dir : List Char) :
    ∃ l : Lexical, ∀ e, Name e → parse (absolute cwd (join dir e)) = l.push e := by
  have habs : ∀ e, Name e → isAbs (join dir e) = (parse dir).rooted := fun e he => by
    rw [join_eq_render dir he, isAbs, isAbs_render, (push_name _ he).1]
  cases hr : (parse dir).rooted with
  | true =>
    refine ⟨parse dir, fun e he => ?_⟩
    rw [absolute, if_pos ((habs e he).trans hr), parse_clean, parse_join dir he.2.1]
  | false =>
    refine ⟨(parse dir).elems.foldl Lexical.push (parse cwd), fun e he => ?_⟩
    obtain ⟨hroot, hups, hnames⟩ := push_name (parse dir) he
    have helems : ((parse dir).push e).elems = (parse dir).elems ++ [e] := by
      unfold Lexical.elems
      rw [hups, hnames, List.append_assoc]
    have hnot : ¬ isAbs (join dir e) = true := by
      rw [habs e he, hr]
      exact Bool.false_ne_true
    rw [absolute, if_neg hnot, join_eq_render dir he, parse_join_render cwd (hroot.trans hr), helems, List.foldl_append]
    · rfl
    · rw [helems]
      exact List.append_ne_nil_of_right_ne_nil _ (List.cons_ne_nil e [])

/-- Names in a directory are different files. -/
theorem absolute_join_inj {cwd dir e f : List Char} (he : Name e) (hf : Name f)
    (h : absolute cwd (join dir e) = absolute cwd (join dir f)) : e = f := by
  obtain ⟨l, hl⟩ := parse_absolute_join cwd dir
  have hpush : l.push e = l.push f := by rw [← hl e he, ← hl f hf, h]
  have hnames : l.names ++ [e] = l.names ++ [f] := by
    rw [← (push_name l he).2.2, ← (push_name l hf).2.2, hpush]
  exact (List.cons.inj (List.append_cancel_left hnames)).1

end Path
