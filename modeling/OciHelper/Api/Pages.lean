import OciHelper.Instances.RetryTasks
import OciHelper.Lib.Slices
import OciHelper.Oci.RuleIds

/-!
# Pages that are cut in memory

* `handleListVCNs`, `handleBootVolumes`, `handleCreateTasks`, `handleMemTasks`, `listSecurityRules` : the five lists
  with pages, from the number and the size of the page on;
* `Paged` : a page is in bounds, and it is the one asked for where nothing overflows;
* `Fits`, `FitsFrom`, `RulesFit` : the conditions under which it is; `pages_in_bounds_iff` : they are exact;
* `listSecurityRules_eq` : where nothing overflows, the listing is `Oci.listSecurityRules`;
* `memTaskPages` : all pages of the memory tasks, each cut from an enumeration of its own;
* `memTaskPages_partition_iff` : they hold each task once, whatever the enumerations, just when one page holds all.

What a list is filtered by is a parameter.
-/

namespace OciHelper.Api.Pages
open Slices

/-- What a list endpoint answers. -/
structure Reply (α : Type) where
  data : List α
  total : Int64
  page : Int64
  size : Int64

variable {α : Type}

/-! ## The endpoints -/

def clampPage (page : Int64) : Int64 := if page < 1 then 1 else page

def clampSize (size : Int64) : Int64 := if size < 1 then 20 else size

def offset (page size : Int64) : Int64 := (page - 1) * size

/-- The end is computed from the start as it is. -/
def cut (xs : Slice α) (page size : Int64) : Option (Reply α) :=
  let page := clampPage page
  let size := clampSize size
  let start := offset page size
  let stop := start + size
  (slice? xs.1 (atMost xs start) (atMost xs stop)).map fun data => ⟨data, xs.len, page, size⟩

/-- The end is computed from the start after it was compared with the length. -/
def cutFrom (xs : Slice α) (page size : Int64) : Option (Reply α) :=
  let page := clampPage page
  let size := clampSize size
  let start := atMost xs (offset page size)
  let stop := atMost xs (start + size)
  (slice? xs.1 start stop).map fun data => ⟨data, xs.len, page, size⟩

def handleListVCNs (vcns : Slice α) (page size : Int64) : Option (Reply α) := cut vcns page size

def handleBootVolumes (vols : Slice α) (keep : α → Bool) (page size : Int64) : Option (Reply α) :=
  cut (vols.filter keep) page size

def handleCreateTasks (all : Slice α) (keep : α → Bool) (page size : Int64) : Option (Reply α) :=
  cutFrom (all.filter keep) page size

/-- `all` is the map in the order in which it is enumerated. -/
def handleMemTasks (all : Slice Instances.RetryTasks.MemTask) (taskType : Instances.RetryTasks.TaskType)
    (page size : Int64) : Option (Reply Instances.RetryTasks.MemTask) :=
  cutFrom (all.filter fun t => t.taskType = taskType) page size

/-- The size of a page of security rules. -/
def clampRules (size : Int64) : Int64 := if size < 1 ∨ size > 100 then 20 else size

/-- `ListSecurityRules`, called by `handleSecurityRules` with the clamped numbers. -/
def listSecurityRules (all : Slice α) (keep : α → Bool) (page size : Int64) : Option (Reply α) :=
  let page := clampPage page
  let size := clampRules size
  let filtered := all.filter keep
  let start := offset page size
  if start ≥ filtered.len then some ⟨[], filtered.len, page, size⟩
  else
    let stop := atMost filtered (start + size)
    (slice? filtered.1 start stop).map fun data => ⟨data, filtered.len, page, size⟩

/-! ## What a page should be -/

/-- The elements with an index from `lo` up to `hi`. -/
def between (xs : List α) (lo hi : Int) : List α := (xs.take hi.toNat).drop lo.toNat

/-- The slice is in bounds; and where the two products are machine integers, it is the page. -/
structure Paged (xs : Slice α) (page size : Int64) (reply : Option (Reply α)) : Prop where
  inBounds : reply.isSome
  exact : (page.toInt - 1) * size.toInt < 2 ^ 63 → page.toInt * size.toInt < 2 ^ 63 →
    reply = some ⟨between xs.1 ((page.toInt - 1) * size.toInt) (page.toInt * size.toInt), xs.len, page, size⟩

/-- The first index does not wrap around to a negative one, and the last one is a machine integer. -/
def Fits (page size : Int64) : Prop := 0 ≤ offset page size ∧ (offset page size).toInt + size.toInt < 2 ^ 63

/-- As `Fits`, for a first index that is at most the length. -/
def FitsFrom (xs : Slice α) (page size : Int64) : Prop :=
  0 ≤ offset page size ∧ min (offset page size).toInt xs.1.length + size.toInt < 2 ^ 63

/-- As `Fits`, but the end matters only if the page starts inside the list. -/
def RulesFit (xs : Slice α) (page size : Int64) : Prop :=
  0 ≤ offset page size ∧
    ((offset page size).toInt < xs.1.length → (offset page size).toInt + size.toInt < 2 ^ 63)

/-! ## Bounds -/

theorem clampPage_pos (page : Int64) : 1 ≤ (clampPage page).toInt := by
  unfold clampPage
  split
  · decide
  · next h => exact Int64.le_iff_toInt_le.mp (Int64.not_lt.mp h)

theorem clampSize_pos (size : Int64) : 1 ≤ (clampSize size).toInt := by
  unfold clampSize
  split
  · decide
  · next h => exact Int64.le_iff_toInt_le.mp (Int64.not_lt.mp h)

theorem clampRules_pos (size : Int64) : 1 ≤ (clampRules size).toInt := by
  unfold clampRules
  split
  · decide
  · next h => exact Int64.le_iff_toInt_le.mp (Int64.not_lt.mp (not_or.mp h).1)

theorem toInt_offset {page size : Int64} (hp : 1 ≤ page.toInt) (hs : 1 ≤ size.toInt)
    (h : (page.toInt - 1) * size.toInt < 2 ^ 63) : (offset page size).toInt = (page.toInt - 1) * size.toInt := by
  have hone : (1 : Int64).toInt = 1 := rfl
  have hlt := page.toInt_lt
  have hsub : (page - 1).toInt = page.toInt - 1 := toInt_sub (by omega) (by omega)
  have hnonneg : 0 ≤ (page.toInt - 1) * size.toInt := Int.mul_nonneg (by omega) (by omega)
  rw [offset, toInt_mul (by rw [hsub]; omega) (by rw [hsub]; exact h), hsub]

theorem between_min (xs : List α) (lo hi : Int) :
    between xs (min lo xs.length) (min hi xs.length) = between xs lo hi := by
  apply List.ext_getElem?
  intro i
  simp only [between, List.getElem?_drop, List.getElem?_take]
  by_cases hi : lo.toNat + i < xs.length
  · have hlo : (min lo xs.length).toNat = lo.toNat := by omega
    rw [hlo]
    exact if_congr (by omega) rfl rfl
  · rw [List.getElem?_eq_none (by omega), List.getElem?_eq_none (by omega), ite_self, ite_self]

/-! ## Which slices are in bounds -/

/-- The end of a page, if it is a machine integer; else it has wrapped around. -/
theorem toInt_stop (start size : Int64) (h0 : 0 ≤ start.toInt) (hs : 1 ≤ size.toInt) :
    start.toInt + size.toInt < 2 ^ 63 ∧ (start + size).toInt = start.toInt + size.toInt ∨
      2 ^ 63 ≤ start.toInt + size.toInt ∧ (start + size).toInt < 0 := by
  have hstart := start.toInt_lt
  have hsize := size.toInt_lt
  by_cases h : start.toInt + size.toInt < 2 ^ 63
  · exact .inl ⟨h, toInt_add (by omega) h⟩
  · refine .inr ⟨by omega, ?_⟩
    rw [toInt_add_neg (by omega)]
    omega

variable {xs : Slice α} {start size : Int64} {ys : List α}

theorem slice_cut_iff (hs : 1 ≤ size.toInt) :
    slice? xs.1 (atMost xs start) (atMost xs (start + size)) = some ys ↔
      (0 ≤ start.toInt ∧ start.toInt + size.toInt < 2 ^ 63) ∧
        ys = between xs.1 start.toInt (start.toInt + size.toInt) := by
  rw [slice?_eq_some_iff, toInt_atMost, toInt_atMost]
  by_cases h0 : 0 ≤ start.toInt
  · rcases toInt_stop start size h0 hs with ⟨hlt, heq⟩ | ⟨hge, hneg⟩
    · rw [heq]
      have hval := between_min xs.1 start.toInt (start.toInt + size.toInt)
      unfold between at hval ⊢
      rw [hval]
      exact and_congr_left' (by omega)
    · exact iff_of_false (fun h => by omega) (fun h => by omega)
  · exact iff_of_false (fun h => by omega) (fun h => h0 h.1.1)

theorem slice_cutFrom_iff (hs : 1 ≤ size.toInt) :
    slice? xs.1 (atMost xs start) (atMost xs (atMost xs start + size)) = some ys ↔
      (0 ≤ start.toInt ∧ min start.toInt xs.1.length + size.toInt < 2 ^ 63) ∧
        ys = between xs.1 start.toInt (start.toInt + size.toInt) := by
  have hmin := toInt_atMost xs start
  rw [slice?_eq_some_iff, toInt_atMost xs (atMost xs start + size), hmin]
  by_cases h0 : 0 ≤ start.toInt
  · rcases toInt_stop (atMost xs start) size (by omega) hs with ⟨hlt, heq⟩ | ⟨hge, hneg⟩
    · rw [heq, hmin]
      have hval := between_min xs.1 start.toInt (start.toInt + size.toInt)
      have hstop : (min (min start.toInt xs.1.length + size.toInt) xs.1.length : Int) =
          min (start.toInt + size.toInt) xs.1.length := by omega
      unfold between at hval ⊢
      rw [hstop, hval]
      exact and_congr_left' (by omega)
    · exact iff_of_false (fun h => by omega) (fun h => by omega)
  · exact iff_of_false (fun h => by omega) (fun h => h0 h.1.1)

theorem slice_rules_iff (hs : 1 ≤ size.toInt) (hlt : start.toInt < xs.1.length) :
    slice? xs.1 start (atMost xs (start + size)) = some ys ↔
      (0 ≤ start.toInt ∧ start.toInt + size.toInt < 2 ^ 63) ∧
        ys = between xs.1 start.toInt (start.toInt + size.toInt) := by
  have hstart : atMost xs start = start := by
    rw [← Int64.toInt_inj, toInt_atMost]
    omega
  rw [← slice_cut_iff hs, hstart]

/-- A slice that is in bounds under a condition, and then is the page from the offset on, is the page asked for just
under that condition. -/
theorem paged_iff {page size : Int64} {fits : Prop} {data : Option (List α)} (hp : 1 ≤ page.toInt)
    (hs : 1 ≤ size.toInt)
    (hdata : ∀ ys, data = some ys ↔
      fits ∧ ys = between xs.1 (offset page size).toInt ((offset page size).toInt + size.toInt)) :
    Paged xs page size (data.map fun data => ⟨data, xs.len, page, size⟩) ↔ fits := by
  constructor
  · intro h
    obtain ⟨ys, hys⟩ := Option.isSome_iff_exists.mp (Option.isSome_map ▸ h.inBounds)
    exact ((hdata ys).mp hys).1
  · intro h
    have hsome := (hdata _).mpr ⟨h, rfl⟩
    refine ⟨by rw [hsome]; rfl, fun hlo hhi => ?_⟩
    have hoff := toInt_offset hp hs hlo
    have hstop : (page.toInt - 1) * size.toInt + size.toInt = page.toInt * size.toInt := by
      rw [Int.sub_mul]
      omega
    rw [hsome, hoff, hstop]
    rfl

theorem cut_paged_iff (xs : Slice α) (page size : Int64) :
    Paged xs (clampPage page) (clampSize size) (cut xs page size) ↔ Fits (clampPage page) (clampSize size) :=
  paged_iff (clampPage_pos page) (clampSize_pos size) fun ys => by
    rw [slice_cut_iff (clampSize_pos size), Fits, nonneg_iff]

theorem cutFrom_paged_iff (xs : Slice α) (page size : Int64) :
    Paged xs (clampPage page) (clampSize size) (cutFrom xs page size) ↔
      FitsFrom xs (clampPage page) (clampSize size) :=
  paged_iff (clampPage_pos page) (clampSize_pos size) fun ys => by
    rw [slice_cutFrom_iff (clampSize_pos size), FitsFrom, nonneg_iff]

theorem listSecurityRules_paged_iff (all : Slice α) (keep : α → Bool) (page size : Int64) :
    Paged (all.filter keep) (clampPage page) (clampRules size) (listSecurityRules all keep page size) ↔
      RulesFit (all.filter keep) (clampPage page) (clampRules size) := by
  have hp := clampPage_pos page
  have hs := clampRules_pos size
  unfold listSecurityRules RulesFit
  generalize all.filter keep = xs, clampPage page = page, clampRules size = size at hp hs ⊢
  dsimp only
  split
  · next h =>
    -- The page starts behind the list.
    have hle := Int64.le_iff_toInt_le.mp h
    rw [xs.toInt_len] at hle
    refine iff_of_true ⟨rfl, fun hlo _ => ?_⟩ ⟨nonneg_iff.mpr (by omega), fun hlt => by omega⟩
    have hnil : between xs.1 ((page.toInt - 1) * size.toInt) (page.toInt * size.toInt) = [] := by
      rw [← toInt_offset hp hs hlo, between, List.drop_eq_nil_iff, List.length_take]
      omega
    rw [hnil]
  · next h =>
    have hlt := Int64.lt_iff_toInt_lt.mp (Int64.not_le.mp h)
    rw [xs.toInt_len] at hlt
    refine paged_iff hp hs fun ys => ?_
    rw [slice_rules_iff hs hlt, nonneg_iff]
    exact and_congr_left' (and_congr_right' ⟨fun h _ => h, fun h => h hlt⟩)

/-- Where the two products are machine integers, every page is in bounds. -/
theorem fits_of_lt {page size : Int64} (hp : 1 ≤ page.toInt) (hs : 1 ≤ size.toInt)
    (hlo : (page.toInt - 1) * size.toInt < 2 ^ 63) (hhi : page.toInt * size.toInt < 2 ^ 63) : Fits page size := by
  have hstop : (page.toInt - 1) * size.toInt + size.toInt = page.toInt * size.toInt := by
    rw [Int.sub_mul]
    omega
  rw [Fits, nonneg_iff, toInt_offset hp hs hlo, hstop]
  exact ⟨Int.mul_nonneg (by omega) (by omega), hhi⟩

/-! ## The listing over unbounded integers -/

section Rules
open Oci (SecurityRuleInfo SecurityList)

/-- The filter of the security rules. -/
def hasKeyword (lower : List Char → List Char) (keyword : List Char) (r : SecurityRuleInfo) : Bool :=
  let kw := lower keyword
  kw = [] ∨ kw <:+: lower r.protocol ∨ kw <:+: lower r.source ∨ kw <:+: lower r.dest ∨ kw <:+: lower r.port

variable {lower : List Char → List Char} {keyword : List Char} {pages : List (List SecurityList)}
  {rules : Slice SecurityRuleInfo}

theorem oci_listSecurityRules_eq (hrules : rules.1 = pages.flatten.flatMap Oci.ruleInfos) {page size : Int}
    (hp : 1 ≤ page) (hs : 1 ≤ size) : Oci.listSecurityRules lower pages keyword page size =
      some (between (rules.filter (hasKeyword lower keyword)).1 ((page - 1) * size) (page * size),
        ((rules.filter (hasKeyword lower keyword)).1.length : Int)) := by
  have hfilter : (rules.filter (hasKeyword lower keyword)).1 = (pages.flatten.flatMap Oci.ruleInfos).filter fun r =>
      lower keyword = [] ∨ lower keyword <:+: lower r.protocol ∨ lower keyword <:+: lower r.source ∨
        lower keyword <:+: lower r.dest ∨ lower keyword <:+: lower r.port := by
    rw [← hrules]
    rfl
  have hstart : 0 ≤ (page - 1) * size := Int.mul_nonneg (by omega) (by omega)
  have hstop : page * size = (page - 1) * size + size := by
    rw [Int.sub_mul]
    omega
  unfold Oci.listSecurityRules
  dsimp only
  rw [← hfilter, hstop]
  generalize (rules.filter (hasKeyword lower keyword)).1 = filtered, (page - 1) * size = start at hstart ⊢
  split
  · next h =>
    have hnil : between filtered start (start + size) = [] := by
      rw [between, List.drop_eq_nil_iff, List.length_take]
      omega
    rw [hnil]
  · next h =>
    have hmin := between_min filtered start (start + size)
    rw [if_neg (by split <;> omega), ← hmin, between, List.drop_take]
    have hlo : (min start filtered.length).toNat = start.toNat := by omega
    rw [hlo]
    congr 4
    split <;> omega

/-- Where the end of the page is a machine integer, nothing overflows. -/
theorem listSecurityRules_eq (hrules : rules.1 = pages.flatten.flatMap Oci.ruleInfos) {page size : Int64}
    (h : (clampPage page).toInt * (clampRules size).toInt < 2 ^ 63) :
    Oci.listSecurityRules lower pages keyword (clampPage page).toInt (clampRules size).toInt =
      (listSecurityRules rules (hasKeyword lower keyword) page size).map fun reply =>
        (reply.data, reply.total.toInt) := by
  have hp := clampPage_pos page
  have hs := clampRules_pos size
  have hlo : ((clampPage page).toInt - 1) * (clampRules size).toInt < 2 ^ 63 := by
    rw [Int.sub_mul]
    omega
  have hfits := fits_of_lt hp hs hlo h
  have hpaged := (listSecurityRules_paged_iff rules (hasKeyword lower keyword) page size).mpr
    ⟨hfits.1, fun _ => hfits.2⟩
  rw [oci_listSecurityRules_eq hrules hp hs, hpaged.exact hlo h, Option.map_some, Slice.toInt_len]

/-- Whatever overflows, what is shown is in a listing. -/
theorem exists_listed (hrules : rules.1 = pages.flatten.flatMap Oci.ruleInfos) {page size : Int64}
    {reply : Reply SecurityRuleInfo}
    (h : listSecurityRules rules (hasKeyword lower keyword) page size = some reply) {info : SecurityRuleInfo}
    (hm : info ∈ reply.data) : ∃ infos total, Oci.listSecurityRules lower pages keyword 1 reply.total.toInt =
      some (infos, total) ∧ info ∈ infos := by
  have hshown : info ∈ (rules.filter (hasKeyword lower keyword)).1 ∧
      reply.total = (rules.filter (hasKeyword lower keyword)).len := by
    unfold listSecurityRules at h
    dsimp only at h
    split at h
    · cases h
      cases hm
    · obtain ⟨data, hdata, rfl⟩ := Option.map_eq_some_iff.mp h
      obtain ⟨-, rfl⟩ := slice?_eq_some_iff.mp hdata
      exact ⟨List.mem_of_mem_take (List.mem_of_mem_drop hm), rfl⟩
  obtain ⟨hmem, htotal⟩ := hshown
  have hpos := List.length_pos_of_mem hmem
  rw [htotal, Slice.toInt_len]
  refine ⟨_, _, oci_listSecurityRules_eq hrules (by omega) (by omega), ?_⟩
  rw [between, Int.sub_self, Int.zero_mul, Int.one_mul, Int.toNat_zero, List.drop_zero, Int.toNat_natCast,
    List.take_length]
  exact hmem

end Rules

/-- **Each of the five lists is cut in bounds, and to the page asked for, just under its condition.** -/
theorem pages_in_bounds_iff (xs : Slice α) (keep : α → Bool) (tasks : Slice Instances.RetryTasks.MemTask)
    (taskType : Instances.RetryTasks.TaskType) (page size : Int64) :
    (Paged xs (clampPage page) (clampSize size) (handleListVCNs xs page size) ↔
        Fits (clampPage page) (clampSize size)) ∧
      (Paged (xs.filter keep) (clampPage page) (clampSize size) (handleBootVolumes xs keep page size) ↔
        Fits (clampPage page) (clampSize size)) ∧
      (Paged (xs.filter keep) (clampPage page) (clampSize size) (handleCreateTasks xs keep page size) ↔
        FitsFrom (xs.filter keep) (clampPage page) (clampSize size)) ∧
      (Paged (tasks.filter fun t => t.taskType = taskType) (clampPage page) (clampSize size)
          (handleMemTasks tasks taskType page size) ↔
        FitsFrom (tasks.filter fun t => t.taskType = taskType) (clampPage page) (clampSize size)) ∧
      (Paged (xs.filter keep) (clampPage page) (clampRules size) (listSecurityRules xs keep page size) ↔
        RulesFit (xs.filter keep) (clampPage page) (clampRules size)) :=
  ⟨cut_paged_iff xs page size, cut_paged_iff (xs.filter keep) page size, cutFrom_paged_iff (xs.filter keep) page size,
    cutFrom_paged_iff (tasks.filter fun t => t.taskType = taskType) page size,
    listSecurityRules_paged_iff xs keep page size⟩

/-- The first index of the third page of 2^62 elements wraps around. -/
theorem far_page_panics : ¬ ∀ (vcns : Slice Unit) (page size : Int64),
    Paged vcns (clampPage page) (clampSize size) (handleListVCNs vcns page size) := by
  intro h
  have hsome := (h ⟨[()], by decide⟩ 3 4611686018427387904).inBounds
  exact absurd hsome (by decide)

/-! ## All pages of the memory tasks -/

open Instances.RetryTasks (MemTask TaskType)

/-- The map of the memory tasks: its values, under their ids. -/
structure MemTasks where
  tasks : Slice MemTask
  nodup : (tasks.1.map MemTask.id).Nodup

/-- The map as one request enumerates it. -/
structure Enumeration (m : MemTasks) where
  order : Slice MemTask
  perm : order.1.Perm m.tasks.1

/-- The tasks that a request for the type is about. -/
def MemTasks.ofType (m : MemTasks) (taskType : TaskType) : List MemTask :=
  m.tasks.1.filter fun t => t.taskType = taskType

/-- `total / size`, rounded up. -/
def pageCount (total : Nat) (size : Int64) : Nat := (total + size.toInt.toNat - 1) / size.toInt.toNat

/-- The pages 1, 2, ..., one after the other; page `k + 1` is cut from the enumeration `orders k`. -/
def memTaskPages {m : MemTasks} (orders : Nat → Enumeration m) (taskType : TaskType) (size : Int64) :
    Option (List MemTask) :=
  ((List.range (pageCount (m.ofType taskType).length size)).mapM fun k =>
    (handleMemTasks (orders k).order taskType (Int64.ofNat (k + 1)) size).map Reply.data).map List.flatten

/-- The pages hold every task of the type once. -/
def Partitioned {m : MemTasks} (orders : Nat → Enumeration m) (taskType : TaskType) (size : Int64) : Prop :=
  ∃ tasks, memTaskPages orders taskType size = some tasks ∧ tasks.Perm (m.ofType taskType)

variable {m : MemTasks} {taskType : TaskType} {size : Int64}

theorem clampPage_of_pos {page : Int64} (h : 1 ≤ page) : clampPage page = page := if_neg (Int64.not_lt.mpr h)

theorem clampSize_of_pos (h : 1 ≤ size) : clampSize size = size := if_neg (Int64.not_lt.mpr h)

/-- Any order of the tasks of a type is that of some enumeration. -/
theorem exists_enumeration {l : List MemTask} (h : l.Perm (m.ofType taskType)) :
    ∃ e : Enumeration m, (e.order.1.filter fun t => t.taskType = taskType) = l := by
  have hperm : (l ++ m.tasks.1.filter fun t => !decide (t.taskType = taskType)).Perm m.tasks.1 :=
    (h.append_right _).trans (List.filter_append_perm ..)
  refine ⟨⟨⟨_, hperm.length_eq ▸ m.tasks.2⟩, hperm⟩, ?_⟩
  have hl : ∀ t ∈ l, decide (t.taskType = taskType) = true := fun t ht => (List.mem_filter.mp (h.mem_iff.mp ht)).2
  rw [List.filter_append, List.filter_eq_self.mpr hl, List.filter_filter]
  simp

theorem perm_ofType (e : Enumeration m) (taskType : TaskType) :
    (e.order.1.filter fun t => t.taskType = taskType).Perm (m.ofType taskType) := e.perm.filter _

theorem nodup_ofType : (m.ofType taskType).Nodup := (List.Nodup.of_map _ m.nodup).filter _

/-- A page of an enumeration is what it has between two indices. -/
theorem handleMemTasks_eq_some_iff (e : Enumeration m) (taskType : TaskType) {page : Int64} (hp : 1 ≤ page) (hs : 1 ≤ size)
    {data : List MemTask} :
    (handleMemTasks e.order taskType page size).map Reply.data = some data ↔
      (0 ≤ (offset page size).toInt ∧
        min (offset page size).toInt (m.ofType taskType).length + size.toInt < 2 ^ 63) ∧
      data = between (e.order.1.filter fun t => t.taskType = taskType) (offset page size).toInt
        ((offset page size).toInt + size.toInt) := by
  have hlen : (e.order.filter fun t => t.taskType = taskType).1.length = (m.ofType taskType).length :=
    (perm_ofType e taskType).length_eq
  have hcut := @slice_cutFrom_iff _ (e.order.filter fun t => t.taskType = taskType) (offset page size) size data
    (Int64.le_iff_toInt_le.mp hs)
  rw [hlen] at hcut
  refine Iff.trans ?_ hcut
  rw [handleMemTasks, cutFrom, clampPage_of_pos hp, clampSize_of_pos hs, Option.map_map]
  exact iff_of_eq (congrArg (· = some data) Option.map_id')

/-- The first page, where it holds everything. -/
theorem partitioned_of_le (orders : Nat → Enumeration m) (hs : 1 ≤ size)
    (h : (m.ofType taskType).length ≤ size.toInt) : Partitioned orders taskType size := by
  have hs' : 1 ≤ size.toInt := Int64.le_iff_toInt_le.mp hs
  have hlt := size.toInt_lt
  rcases Nat.eq_zero_or_pos (m.ofType taskType).length with h0 | hpos
  · have hcount : pageCount (m.ofType taskType).length size = 0 := by
      rw [pageCount, h0]
      exact Nat.div_eq_of_lt (by omega)
    refine ⟨[], ?_, by rw [List.length_eq_zero_iff.mp h0]⟩
    rw [memTaskPages, hcount]
    rfl
  · have hcount : pageCount (m.ofType taskType).length size = 1 :=
      Nat.div_eq_of_lt_le (by omega) (by omega)
    have hoff : (offset 1 size).toInt = 0 := by simp [offset]
    have hpage := (handleMemTasks_eq_some_iff (orders 0) taskType (Int64.le_refl 1) hs).mpr
      ⟨⟨by omega, by omega⟩, rfl⟩
    have hall := (perm_ofType (orders 0) taskType).length_eq
    rw [hoff, between, Int.zero_add, Int.toNat_zero, List.drop_zero, List.take_of_length_le (by omega)] at hpage
    refine ⟨orders 0 |>.order.1.filter fun t => t.taskType = taskType, ?_, perm_ofType (orders 0) taskType⟩
    rw [memTaskPages, hcount, List.range_one, List.mapM_cons, show Int64.ofNat (0 + 1) = 1 from rfl, hpage]
    simp

/-- The order that the second request meets: a page of other tasks first, then the first task. -/
def pushedBack (a : MemTask) (rest : List MemTask) (n : Nat) : List MemTask := rest.take n ++ a :: rest.drop n

theorem mem_second_page {a : MemTask} {rest : List MemTask} {n : Nat} (hn : 1 ≤ n) (h : n ≤ rest.length) :
    a ∈ between (pushedBack a rest n) n (n + n : Nat) := by
  have hlen : (rest.take n).length = n := List.length_take_of_le h
  refine List.mem_iff_getElem?.mpr ⟨0, ?_⟩
  rw [between, Int.toNat_natCast, Int.toNat_natCast, List.getElem?_drop, List.getElem?_take, if_pos (by omega),
    pushedBack, List.getElem?_append_right (by omega), hlen]
  simp

/-- Of more than one page, the first two are cut from the first two enumerations. -/
theorem first_two_pages {orders : Nat → Enumeration m} {k : Nat}
    (hcount : pageCount (m.ofType taskType).length size = k + 2) {tasks : List MemTask}
    (h : memTaskPages orders taskType size = some tasks) :
    ∃ page1 page2 later,
      (handleMemTasks (orders 0).order taskType (Int64.ofNat (0 + 1)) size).map Reply.data = some page1 ∧
      (handleMemTasks (orders 1).order taskType (Int64.ofNat (1 + 1)) size).map Reply.data = some page2 ∧
      tasks = page1 ++ (page2 ++ later) := by
  rw [memTaskPages, hcount, List.range_succ_eq_map, List.range_succ_eq_map, List.map_cons, List.mapM_cons,
    List.mapM_cons] at h
  obtain ⟨pages, hpages, rfl⟩ := Option.map_eq_some_iff.mp h
  obtain ⟨page1, hpage1, hpages⟩ := Option.bind_eq_some_iff.mp hpages
  obtain ⟨others, hothers, hpages⟩ := Option.bind_eq_some_iff.mp hpages
  obtain ⟨page2, hpage2, hothers⟩ := Option.bind_eq_some_iff.mp hothers
  obtain ⟨later, -, hothers⟩ := Option.bind_eq_some_iff.mp hothers
  obtain rfl := Option.some.inj hothers
  obtain rfl := Option.some.inj hpages
  exact ⟨page1, page2, later.flatten, hpage1, hpage2, by rw [List.flatten_cons, List.flatten_cons]⟩

/-- With more tasks than fit on a page, two enumerations show one task on the first page and on the second. -/
theorem not_partitioned_of_lt (hs : 1 ≤ size) (h : size.toInt < (m.ofType taskType).length) :
    ∃ orders : Nat → Enumeration m, ¬ Partitioned orders taskType size := by
  have hs' : 1 ≤ size.toInt := Int64.le_iff_toInt_le.mp hs
  obtain ⟨n, hn⟩ : ∃ n : Nat, size.toInt = n := ⟨size.toInt.toNat, by omega⟩
  match htasks : m.ofType taskType with
  | [] => simp [htasks] at h; omega
  | a :: rest =>
    rw [htasks, List.length_cons] at h
    have hperm : (pushedBack a rest n).Perm (m.ofType taskType) := by
      rw [htasks]
      exact List.perm_middle.trans ((List.take_append_drop n rest).symm ▸ List.Perm.refl _)
    obtain ⟨first, hfirst⟩ := exists_enumeration (List.Perm.refl (m.ofType taskType))
    obtain ⟨second, hsecond⟩ := exists_enumeration hperm
    refine ⟨fun k => if k = 0 then first else second, ?_⟩
    rintro ⟨tasks, hpages, hall⟩
    obtain ⟨k, hcount⟩ : ∃ k, pageCount (m.ofType taskType).length size = k + 2 := by
      refine ⟨pageCount (m.ofType taskType).length size - 2, ?_⟩
      have htwo : 2 ≤ pageCount (m.ofType taskType).length size := by
        rw [pageCount, htasks, List.length_cons, hn, Int.toNat_natCast, Nat.le_div_iff_mul_le (by omega)]
        omega
      omega
    obtain ⟨page1, page2, later, hpage1, hpage2, rfl⟩ := first_two_pages hcount hpages
    have hone := ((handleMemTasks_eq_some_iff _ taskType (by decide) hs).mp hpage1).2
    have htwo := ((handleMemTasks_eq_some_iff _ taskType (by decide) hs).mp hpage2).2
    have hoff1 : (offset (Int64.ofNat (0 + 1)) size).toInt = 0 := by
      rw [toInt_offset (by decide) hs' (by simp)]
      simp
    have hoff2 : (offset (Int64.ofNat (1 + 1)) size).toInt = n := by
      have hsub : (Int64.ofNat (1 + 1)).toInt - 1 = 1 := rfl
      have hlt := size.toInt_lt
      rw [toInt_offset (by decide) hs' (by rw [hsub]; omega), hsub, Int.one_mul, hn]
    rw [if_pos rfl, hfirst, hoff1, htasks] at hone
    rw [if_neg (by decide), hsecond, hoff2, hn] at htwo
    have hmem1 : a ∈ page1 := by
      obtain ⟨j, rfl⟩ : ∃ j, n = j + 1 := ⟨n - 1, by omega⟩
      rw [hone, hn, between, Int.zero_add, Int.toNat_natCast, List.take_succ_cons]
      exact List.mem_cons_self
    have hmem2 : a ∈ page2 := by
      rw [htwo]
      exact mem_second_page (by omega) (by omega)
    -- The task is there twice.
    have hnodup := hall.nodup_iff.mpr nodup_ofType
    exact (List.nodup_append.mp hnodup).2.2 a hmem1 a (List.mem_append_left _ hmem2) rfl

/-- **The pages hold every task once, whatever the orders in which the map is enumerated, just when the first page
holds everything.** -/
theorem memTaskPages_partition_iff (m : MemTasks) (taskType : TaskType) (size : Int64) (h : 1 ≤ size) :
    (∀ orders : Nat → Enumeration m, Partitioned orders taskType size) ↔
      (m.ofType taskType).length ≤ size.toInt := by
  constructor
  · intro hall
    by_contra hlt
    obtain ⟨orders, hnot⟩ := not_partitioned_of_lt h (not_le.mp hlt)
    exact hnot (hall orders)
  · exact fun hle orders => partitioned_of_le orders h hle

def twoTasks : MemTasks where
  tasks := ⟨[⟨"a", "i", .changeIP, "", "", false, 0, 0, .started⟩, ⟨"b", "j", .changeIP, "", "", false, 0, 0, .started⟩],
    by decide⟩
  nodup := by decide

/-- The first request meets the tasks in one order, the later ones in the other. -/
def turned (k : Nat) : Enumeration twoTasks :=
  if k = 0 then ⟨twoTasks.tasks, List.Perm.refl _⟩
  else ⟨⟨twoTasks.tasks.1.reverse, by decide⟩, List.reverse_perm _⟩

/-- The first task is on both pages, the second on none. -/
theorem turned_pages_repeat : ¬ ∀ (m : MemTasks) (taskType : TaskType) (size : Int64), 1 ≤ size →
    ∀ orders : Nat → Enumeration m, Partitioned orders taskType size := by
  intro h
  obtain ⟨tasks, hpages, hperm⟩ := h twoTasks .changeIP 1 (by decide) turned
  have htwice : (memTaskPages turned .changeIP 1).map (List.map MemTask.id) = some ["a", "a"] := by decide
  rw [hpages] at htwice
  have hids := (hperm.map MemTask.id).nodup_iff.mpr (by decide)
  rw [Option.some.inj htwice] at hids
  exact absurd hids (by decide)

theorem two_tasks_partitioned : Partitioned turned .changeIP 2 :=
  (memTaskPages_partition_iff twoTasks .changeIP 2 (by decide)).mpr (by decide) turned

end OciHelper.Api.Pages
