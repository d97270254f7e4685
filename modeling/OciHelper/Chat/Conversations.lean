import Mathlib.Algebra.Order.Ring.Int
import Mathlib.Data.List.AList
import OciHelper.Lib.ExchangeSort

/-!
# Conversations

* `Cache` : the conversations in memory, by session;
* `conversationCacheCleanup` : one tick of the cleanup, which drops what is expired and then what is too much;
* `Evicts` : what a tick may drop; `cleanup_evicts` : it drops no more and no less.
-/

namespace OciHelper.Chat

structure ChatMessage where
  role : String
  content : List Char
  deriving DecidableEq, Repr

/-- Times are nanoseconds. -/
structure ConversationEntry where
  messages : List ChatMessage
  lastAccess : Int
  deriving DecidableEq, Repr

abbrev Cache := AList fun _ : String => ConversationEntry

abbrev Cache.Row := Sigma fun _ : String => ConversationEntry

def maxConversationEntries : Nat := 200

/-- One hour. -/
def conversationTTL : Int := 60 * 60 * 10 ^ 9

/-- The order in which the map is ranged over. -/
structure Order where
  range : Cache → List Cache.Row
  perm : ∀ cache, (range cache).Perm cache.entries

/-- `delete` of each key in turn. -/
def deleteEach (cache : Cache) (keys : List String) : Cache := keys.foldl (fun cache key => cache.erase key) cache

/-- The first loop. -/
def expire (order : Order) (cutoff : Int) (cache : Cache) : Cache :=
  (order.range cache).foldl (fun c v => if v.2.lastAccess < cutoff then c.erase v.1 else c) cache

/-- The entries that were accessed first are deleted, if there are too many. -/
def enforce (order : Order) (cache : Cache) : Cache :=
  if cache.entries.length > maxConversationEntries then
    let entries := ExchangeSort.sort Prod.snd ((order.range cache).map fun v => (v.1, v.2.lastAccess))
    deleteEach cache ((entries.take (entries.length - maxConversationEntries)).map Prod.fst)
  else cache

/-- One tick at the time `now`; each loop over the map has an order of its own. -/
def conversationCacheCleanup (first second : Order) (now : Int) (cache : Cache) : Cache :=
  enforce second (expire first (now - conversationTTL) cache)

/-! ## What a tick may drop -/

def Expired (now : Int) (entry : ConversationEntry) : Prop := entry.lastAccess < now - conversationTTL

instance (now : Int) (entry : ConversationEntry) : Decidable (Expired now entry) := inferInstanceAs (Decidable (_ < _))

/-- The entries that are not expired. -/
def live (now : Int) (cache : Cache) : List Cache.Row := cache.entries.filter fun v => ¬ Expired now v.2

/-- `after` is what a tick leaves of `cache`. -/
structure Evicts (now : Int) (cache after : Cache) : Prop where
  kept : ∀ id entry, after.lookup id = some entry → cache.lookup id = some entry
  fresh : ∀ id entry, after.lookup id = some entry → ¬ Expired now entry
  bounded : after.entries.length ≤ maxConversationEntries
  filled : min (live now cache).length maxConversationEntries ≤ after.entries.length
  needed : (live now cache).length ≤ maxConversationEntries → ∀ id entry, cache.lookup id = some entry →
    ¬ Expired now entry → after.lookup id = some entry
  newest : ∀ id entry id' entry', cache.lookup id = some entry → ¬ Expired now entry → after.lookup id = none →
    after.lookup id' = some entry' → entry.lastAccess ≤ entry'.lastAccess

/-! ## Deletions -/

theorem entries_erase (cache : Cache) (key : String) :
    (cache.erase key).entries = cache.entries.filter fun v => v.1 ≠ key := by
  have hnodup : (cache.entries.map Sigma.fst).Nodup := cache.nodupKeys
  show List.kerase key cache.entries = _
  generalize cache.entries = rows at hnodup ⊢
  induction rows with
  | nil => rfl
  | cons v rows ih =>
    obtain ⟨hv, hrows⟩ := List.nodup_cons.mp hnodup
    by_cases hk : v.1 = key
    · subst hk
      have hrest : ∀ w ∈ rows, w.1 ≠ v.1 := fun w hw he => hv (List.mem_map.mpr ⟨w, hw, he⟩)
      rw [List.kerase_cons_eq rfl, List.filter_cons_of_neg (by simp), List.filter_eq_self.mpr (by simpa using hrest)]
    · rw [List.kerase_cons_ne (Ne.symm hk), List.filter_cons_of_pos (by simpa using hk), ih hrows]

theorem entries_deleteEach (keys : List String) (cache : Cache) :
    (deleteEach cache keys).entries = cache.entries.filter fun v => v.1 ∉ keys := by
  induction keys generalizing cache with
  | nil => simp [deleteEach]
  | cons key keys ih =>
    have h : deleteEach cache (key :: keys) = deleteEach (cache.erase key) keys := rfl
    rw [h, ih, entries_erase, List.filter_filter]
    apply List.filter_congr
    intro v _
    simp [Bool.and_comm]

/-- A key stands for one entry. -/
theorem eq_of_mem_entries {cache : Cache} {v w : Cache.Row} (hv : v ∈ cache.entries) (hw : w ∈ cache.entries)
    (h : v.1 = w.1) : v = w := List.inj_on_of_nodup_map cache.nodupKeys hv hw h

theorem expire_eq_deleteEach (order : Order) (cutoff : Int) (cache : Cache) : expire order cutoff cache =
    deleteEach cache (((order.range cache).filter fun v => v.2.lastAccess < cutoff).map Sigma.fst) := by
  unfold expire deleteEach
  rw [List.foldl_map, List.foldl_filter]
  simp

theorem entries_expire (order : Order) (now : Int) (cache : Cache) :
    (expire order (now - conversationTTL) cache).entries = live now cache := by
  rw [expire_eq_deleteEach, entries_deleteEach, live]
  apply List.filter_congr
  intro v hv
  simp only [List.mem_map, List.mem_filter, (order.perm cache).mem_iff, decide_eq_true_eq, decide_eq_decide, not_iff_not]
  constructor
  · rintro ⟨w, ⟨hw, hcut⟩, he⟩
    rw [eq_of_mem_entries hw hv he] at hcut
    exact hcut
  · exact fun h => ⟨v, ⟨hv, h⟩, rfl⟩

/-! ## What is too much -/

/-- Without the keys of its first entries, a list is what stands behind them. -/
theorem filter_notMem_take {l : List (String × Int)} (h : (l.map Prod.fst).Nodup) (d : Nat) :
    l.filter (fun e => e.1 ∉ (l.take d).map Prod.fst) = l.drop d := by
  have hsplit : l.take d ++ l.drop d = l := List.take_append_drop d l
  rw [← hsplit, List.map_append] at h
  have hapart := List.disjoint_of_nodup_append h
  have happend : ∀ p : String × Int → Bool, l.filter p = (l.take d).filter p ++ (l.drop d).filter p := by
    intro p
    rw [← List.filter_append, hsplit]
  rw [happend, List.filter_eq_nil_iff.mpr, List.nil_append, List.filter_eq_self.mpr]
  · intro e he
    exact decide_eq_true fun hm => hapart hm (List.mem_map_of_mem he)
  · intro e he
    rw [decide_eq_true_eq, not_not]
    exact List.mem_map_of_mem he

/-- The entries sorted by the time of their last access. -/
def sorted (order : Order) (cache : Cache) : List (String × Int) :=
  ExchangeSort.sort Prod.snd ((order.range cache).map fun v => (v.1, v.2.lastAccess))

theorem sorted_perm (order : Order) (cache : Cache) :
    (sorted order cache).Perm (cache.entries.map fun v => (v.1, v.2.lastAccess)) :=
  (ExchangeSort.sort_perm _ _).trans ((order.perm cache).map _)

theorem keys_sorted_nodup (order : Order) (cache : Cache) : ((sorted order cache).map Prod.fst).Nodup := by
  have h := (sorted_perm order cache).map Prod.fst
  rw [List.map_map] at h
  exact h.nodup_iff.mpr cache.nodupKeys

/-- How many entries are too many. -/
def excess (cache : Cache) : Nat := cache.entries.length - maxConversationEntries

theorem length_sorted (order : Order) (cache : Cache) : (sorted order cache).length = cache.entries.length := by
  have h := (sorted_perm order cache).length_eq
  rwa [List.length_map] at h

/-- What is deleted are the first of the sorted entries. -/
theorem entries_enforce (order : Order) (cache : Cache) : (enforce order cache).entries =
    cache.entries.filter fun v => v.1 ∉ ((sorted order cache).take (excess cache)).map Prod.fst := by
  unfold enforce
  split
  · dsimp only
    rw [entries_deleteEach, ← sorted, length_sorted, excess]
  · next h =>
    have hzero : excess cache = 0 := by
      unfold excess
      omega
    simp [hzero]

/-- What is left are the last of them. -/
theorem enforce_perm (order : Order) (cache : Cache) :
    ((enforce order cache).entries.map fun v => (v.1, v.2.lastAccess)).Perm
      ((sorted order cache).drop (excess cache)) := by
  rw [entries_enforce, ← filter_notMem_take (keys_sorted_nodup order cache)]
  generalize ((sorted order cache).take (excess cache)).map Prod.fst = deleted
  have h := (sorted_perm order cache).symm.filter fun e => decide (e.1 ∉ deleted)
  rw [List.filter_map] at h
  exact h

theorem length_enforce (order : Order) (cache : Cache) :
    (enforce order cache).entries.length = min cache.entries.length maxConversationEntries := by
  have h := (enforce_perm order cache).length_eq
  rw [List.length_map, List.length_drop, length_sorted, excess] at h
  omega

/-- What is deleted was accessed no later than what is kept. -/
theorem lastAccess_le (order : Order) {cache : Cache} {v w : Cache.Row} (hv : v ∈ cache.entries)
    (hgone : v ∉ (enforce order cache).entries) (hw : w ∈ (enforce order cache).entries) :
    v.2.lastAccess ≤ w.2.lastAccess := by
  have hdeleted : (v.1, v.2.lastAccess) ∈ (sorted order cache).take (excess cache) := by
    rw [entries_enforce, List.mem_filter, not_and, decide_eq_true_eq, not_not] at hgone
    obtain ⟨e, he, hkey⟩ := List.mem_map.mp (hgone hv)
    obtain ⟨u, hu, rfl⟩ := List.mem_map.mp ((sorted_perm order cache).mem_iff.mp (List.mem_of_mem_take he))
    rwa [eq_of_mem_entries hu hv hkey] at he
  have hkept : (w.1, w.2.lastAccess) ∈ (sorted order cache).drop (excess cache) :=
    (enforce_perm order cache).mem_iff.mp (List.mem_map.mpr ⟨w, hw, rfl⟩)
  have hsorted : (sorted order cache).Pairwise fun a b => a.2 ≤ b.2 := ExchangeSort.sort_sorted _ _
  rw [← List.take_append_drop (excess cache) (sorted order cache)] at hsorted
  exact (List.pairwise_append.mp hsorted).2.2 _ hdeleted _ hkept

/-! ## A tick -/

theorem lookup_eq_some_iff {cache : Cache} {id : String} {entry : ConversationEntry} :
    cache.lookup id = some entry ↔ (⟨id, entry⟩ : Cache.Row) ∈ cache.entries := AList.mem_lookup_iff

/-- **A tick drops what is expired, and of the others the oldest ones if there are too many.** -/
theorem cleanup_evicts (first second : Order) (now : Int) (cache : Cache) :
    Evicts now cache (conversationCacheCleanup first second now cache) := by
  have hlive := entries_expire first now cache
  have hmem : ∀ v, v ∈ (conversationCacheCleanup first second now cache).entries → v ∈ live now cache := by
    intro v hv
    rw [← hlive]
    rw [conversationCacheCleanup, entries_enforce] at hv
    exact (List.mem_filter.mp hv).1
  constructor
  · intro id entry h
    exact lookup_eq_some_iff.mpr (List.mem_filter.mp (hmem _ (lookup_eq_some_iff.mp h))).1
  · intro id entry h
    simpa using (List.mem_filter.mp (hmem _ (lookup_eq_some_iff.mp h))).2
  · rw [conversationCacheCleanup, length_enforce]
    omega
  · rw [conversationCacheCleanup, length_enforce, hlive]
  · intro hle id entry h hfresh
    have hin : (⟨id, entry⟩ : Cache.Row) ∈ live now cache :=
      List.mem_filter.mpr ⟨lookup_eq_some_iff.mp h, by simpa using hfresh⟩
    have hzero : excess (expire first (now - conversationTTL) cache) = 0 := by
      rw [excess, hlive]
      omega
    rw [lookup_eq_some_iff, conversationCacheCleanup, entries_enforce, hzero, hlive]
    simpa using hin
  · intro id entry id' entry' h hfresh hgone h'
    refine lastAccess_le second (v := ⟨id, entry⟩) (w := ⟨id', entry'⟩) ?_ ?_ (lookup_eq_some_iff.mp h')
    · rw [hlive]
      exact List.mem_filter.mpr ⟨lookup_eq_some_iff.mp h, by simpa using hfresh⟩
    · intro hin
      rw [conversationCacheCleanup, lookup_eq_some_iff.mpr hin] at hgone
      cases hgone

end OciHelper.Chat
