import Mathlib.Data.List.Induction
import OciHelper.Schedule.Scheduler

/-!
# Schedules stay within their numbers

* `Scheduler.Kept` : no schedule has launched more than its last edit stored, no count was written back
  over a later edit, and no run started from a paused or deleted row;
* `Scheduler.Timely` : the condition; while a tick holds a due copy nobody writes the row it was copied
  from, and no edit falls into a run that has not written its count back;
* `Sound`, `Sound.step` : the invariant; `kept_of_timely` : every timely run keeps it;
* `stale_copy_overcreates` : a tick that starts a run from a copy older than the last write-back.
-/

namespace OciHelper.Schedule

/-! ## The account of a schedule -/

theorem account_snoc (id : Int) (l : List Entry) (e : Entry) :
    account id (l ++ [e]) = (account id l).add id e := by
  simp [account, List.foldl_append]

namespace Scheduler

/-- What a schedule has launched since its last edit. -/
def launched (s : Scheduler) (id : Int) : Int := (account id s.log).launched

/-- What its last edit allows. -/
def quota (s : Scheduler) (id : Int) : Int := max (account id s.log).quota 0

structure Kept (s : Scheduler) : Prop where
  launched : ∀ id, s.launched id ≤ s.quota id
  wroteBack : ∀ id, .wroteBack id false ∉ s.log
  started : ∀ id, .started id false ∉ s.log

/-- The due copies a tick holds and may still start. -/
def held (s : Scheduler) : List Listed :=
  match s.tick with
  | .waiting => []
  | .testing now todo => todo.filter fun l => due now l.copy
  | .starting now l todo => l :: todo.filter fun l => due now l.copy

def Unheld (s : Scheduler) (id : Int) : Prop := ∀ l ∈ s.held, l.task ≠ id

/-- No run of the schedule has still to write its count back. -/
def Settled (s : Scheduler) (id : Int) : Prop :=
  ∀ rid r, s.runs.get rid = some r → r.task = id → r.stage = .release

/-- **The condition.** The row of a schedule is edited, paused or deleted only while no tick holds a due
copy of it; it is edited only when its runs have written their counts back; and no run panics between a
launch and its write-back. -/
def Timely (s : Scheduler) : Event → Prop
  | .put id _ => s.Unheld id ∧ s.Settled id
  | .pause id => s.Unheld id
  | .delete id => s.Unheld id
  | .run rid a => ∀ r, s.runs.get rid = some r →
      ((r.stage = .drop ∨ ∃ remaining auth, r.stage = .settle remaining auth) → s.Unheld r.task) ∧
        (a = .panic → r.left = r.copy.createNumbers)
  | _ => True

/-! ## The invariant -/

/-- One run a schedule, under its guard. -/
structure Guarded (s : Scheduler) : Prop where
  guard : ∀ rid r, s.runs.get rid = some r → r.task ∈ s.running
  unique : ∀ rid rid' r r', s.runs.get rid = some r → s.runs.get rid' = some r' → r.task = r'.task →
    rid = rid'
  starting : ∀ now l todo, s.tick = .starting now l todo →
    l.task ∈ s.running ∧ ∀ rid r, s.runs.get rid = some r → r.task ≠ l.task
  known : ∀ rid r, s.runs.get rid = some r → r.task ≤ s.rows.seq

structure Sound (s : Scheduler) : Prop extends Guarded s where
  -- a held copy is the row as it stands
  held : ∀ l ∈ s.held, ∃ t, s.rows.get l.task = some t ∧ t.paused = false ∧
    t.createNumbers = l.copy.createNumbers ∧ l.edition = s.edition l.task
  -- a run that has not settled works on the current edition, within its quota
  edition : ∀ rid r, s.runs.get rid = some r → r.stage ≠ .release → r.edition = s.edition r.task
  row : ∀ rid r t, s.runs.get rid = some r → r.stage ≠ .release → s.rows.get r.task = some t →
    t.createNumbers = r.copy.createNumbers
  left : ∀ rid r, s.runs.get rid = some r → r.stage ≠ .release →
    s.launched r.task + r.left ≤ s.quota r.task
  index : ∀ rid r ads i remaining auth, s.runs.get rid = some r →
    r.stage = .launching ads i remaining auth → 0 ≤ i
  -- a row at rest is within its quota
  rest : ∀ id t, s.rows.get id = some t → s.Settled id → s.launched id + t.createNumbers ≤ s.quota id
  kept : Kept s

@[simp] theorem rows_record (s : Scheduler) (e : Entry) : (s.record e).rows = s.rows := rfl
@[simp] theorem runs_record (s : Scheduler) (e : Entry) : (s.record e).runs = s.runs := rfl
@[simp] theorem tick_record (s : Scheduler) (e : Entry) : (s.record e).tick = s.tick := rfl
@[simp] theorem running_record (s : Scheduler) (e : Entry) : (s.record e).running = s.running := rfl
@[simp] theorem held_record (s : Scheduler) (e : Entry) : (s.record e).held = s.held := rfl
@[simp] theorem log_record (s : Scheduler) (e : Entry) : (s.record e).log = s.log ++ [e] := rfl

theorem account_record (s : Scheduler) (e : Entry) (id : Int) :
    account id (s.record e).log = (account id s.log).add id e := account_snoc id s.log e

/-- The three figures of a schedule are those of its account. -/
theorem figures_of_account {s s' : Scheduler} {id : Int} (h : account id s'.log = account id s.log) :
    s'.launched id = s.launched id ∧ s'.quota id = s.quota id ∧ s'.edition id = s.edition id := by
  refine ⟨?_, ?_, ?_⟩
  · rw [launched, launched, h]
  · rw [quota, quota, h]
  · rw [edition, edition, h]

theorem Kept.of_log {s s' : Scheduler} (h : Kept s) (hlog : s'.log = s.log) : Kept s' where
  launched := fun id => by
    obtain ⟨hl, hq, -⟩ := figures_of_account (congrArg (account id) hlog)
    rw [hl, hq]
    exact h.launched id
  wroteBack := fun id => hlog ▸ h.wroteBack id
  started := fun id => hlog ▸ h.started id

theorem Kept.record {s : Scheduler} (h : Kept s) {e : Entry}
    (hl : ∀ id, (s.record e).launched id ≤ (s.record e).quota id)
    (hw : ∀ id, e ≠ .wroteBack id false) (hs : ∀ id, e ≠ .started id false) : Kept (s.record e) where
  launched := hl
  wroteBack := by
    intro id hm
    rcases List.mem_append.mp hm with hm | hm
    · exact h.wroteBack id hm
    · exact hw id (List.mem_singleton.mp hm).symm
  started := by
    intro id hm
    rcases List.mem_append.mp hm with hm | hm
    · exact h.started id hm
    · exact hs id (List.mem_singleton.mp hm).symm

/-! ## Steps that touch the rows only -/

theorem Sound.of_rows {s : Scheduler} (h : Sound s) (rows : CreateTasks)
    (hsub : ∀ id t', rows.get id = some t' → ∃ t, s.rows.get id = some t ∧ t'.createNumbers = t.createNumbers)
    (hheld : ∀ l ∈ s.held, ∀ t, s.rows.get l.task = some t → t.paused = false →
      ∃ t', rows.get l.task = some t' ∧ t'.paused = false ∧ t'.createNumbers = t.createNumbers)
    (hseq : rows.seq = s.rows.seq) : Sound { s with rows := rows } where
  toGuarded := ⟨h.guard, h.unique, h.starting, fun rid r hr => hseq ▸ h.known rid r hr⟩
  held := by
    intro l hl
    obtain ⟨t, ht, hp, hn, he⟩ := h.held l hl
    obtain ⟨t', ht', hp', hn'⟩ := hheld l hl t ht hp
    exact ⟨t', ht', hp', hn'.trans hn, he⟩
  edition := h.edition
  row := by
    intro rid r t' hr hs ht'
    obtain ⟨t, ht, hn⟩ := hsub _ _ ht'
    exact hn.trans (h.row rid r t hr hs ht)
  left := h.left
  index := h.index
  rest := by
    intro id t' ht' hset
    obtain ⟨t, ht, hn⟩ := hsub _ _ ht'
    have := h.rest id t ht hset
    rw [← hn] at this
    exact this
  kept := h.kept.of_log rfl

theorem sound_update {s : Scheduler} (h : Sound s) (id : Int) (f : CreateTask → CreateTask)
    (hn : ∀ t, (f t).createNumbers = t.createNumbers)
    (hp : s.Unheld id ∨ ∀ t : CreateTask, t.paused = false → (f t).paused = false) :
    Sound { s with rows := s.rows.update id f } := by
  refine h.of_rows _ ?_ ?_ rfl
  · intro k t' ht'
    rw [KeyTable.get_update] at ht'
    split at ht'
    · obtain ⟨t, ht, rfl⟩ := Option.map_eq_some_iff.mp ht'
      exact ⟨t, ht, hn t⟩
    · exact ⟨t', ht', rfl⟩
  · intro l hl t ht hpaused
    rw [KeyTable.get_update]
    split
    · rename_i he
      rcases hp with hp | hp
      · exact absurd he (hp l hl)
      · exact ⟨f t, by rw [ht]; rfl, hp t hpaused, hn t⟩
    · exact ⟨t, ht, hpaused, rfl⟩

theorem sound_delete {s : Scheduler} (h : Sound s) {id : Int} (hu : s.Unheld id) :
    Sound { s with rows := deleteCreateTask s.rows id } := by
  refine h.of_rows _ ?_ ?_ rfl
  · exact fun k t' ht' => ⟨t', (s.rows.get_of_get_erase ht').1, rfl⟩
  · exact fun l hl t ht hp => ⟨t, (KeyTable.get_erase_of_ne _ (hu l hl)).trans ht, hp, rfl⟩

/-! ## Steps of a run -/

theorem get_setStage {s : Scheduler} {rid rid' : Int} {next : Option Stage} {r r' : Run}
    (hr : s.runs.get rid = some r) (h : (s.setStage rid next).runs.get rid' = some r') :
    (rid' ≠ rid ∧ s.runs.get rid' = some r') ∨
      ∃ stage, rid' = rid ∧ next = some stage ∧ r' = { r with stage := stage } := by
  cases next with
  | none => exact Or.inl ⟨(s.runs.get_of_get_erase h).2, (s.runs.get_of_get_erase h).1⟩
  | some stage =>
    by_cases he : rid' = rid
    · subst he
      simp only [setStage, KeyTable.get_update_self, hr] at h
      cases h
      exact Or.inr ⟨stage, rfl, rfl, rfl⟩
    · exact Or.inl ⟨he, (KeyTable.get_update_of_ne _ _ he).symm.trans h⟩

theorem Guarded.setStage {s : Scheduler} (h : Guarded s) {rid : Int} {r : Run}
    (hr : s.runs.get rid = some r) (next : Option Stage) : Guarded (s.setStage rid next) := by
  have hsub : ∀ rid' r', (s.setStage rid next).runs.get rid' = some r' →
      ∃ r₀, s.runs.get rid' = some r₀ ∧ r₀.task = r'.task := by
    intro rid' r' hr'
    rcases get_setStage hr hr' with ⟨-, h'⟩ | ⟨_, rfl, -, rfl⟩
    · exact ⟨r', h', rfl⟩
    · exact ⟨r, hr, rfl⟩
  have htick : (s.setStage rid next).tick = s.tick := by cases next <;> rfl
  have hrunning : (s.setStage rid next).running = s.running := by cases next <;> rfl
  have hrows : (s.setStage rid next).rows = s.rows := by cases next <;> rfl
  refine ⟨?_, ?_, ?_, ?_⟩
  · intro rid' r' hr'
    obtain ⟨r₀, h₀, ht⟩ := hsub rid' r' hr'
    rw [hrunning, ← ht]
    exact h.guard rid' r₀ h₀
  · intro rid₁ rid₂ r₁ r₂ h₁ h₂ ht
    obtain ⟨r₁', h₁', ht₁⟩ := hsub rid₁ r₁ h₁
    obtain ⟨r₂', h₂', ht₂⟩ := hsub rid₂ r₂ h₂
    exact h.unique rid₁ rid₂ r₁' r₂' h₁' h₂' (ht₁.trans (ht.trans ht₂.symm))
  · intro now l todo hl
    obtain ⟨hg, hno⟩ := h.starting now l todo (htick ▸ hl)
    refine ⟨hrunning ▸ hg, fun rid' r' hr' => ?_⟩
    obtain ⟨r₀, h₀, ht⟩ := hsub rid' r' hr'
    exact ht ▸ hno rid' r₀ h₀
  · intro rid' r' hr'
    obtain ⟨r₀, h₀, ht⟩ := hsub rid' r' hr'
    rw [hrows, ← ht]
    exact h.known rid' r₀ h₀

/-- A run other than the one that steps belongs to another schedule. -/
theorem Guarded.other {s : Scheduler} (h : Guarded s) {rid rid' : Int} {r r' : Run}
    (hr : s.runs.get rid = some r) (hr' : s.runs.get rid' = some r') (hne : rid' ≠ rid) :
    r'.task ≠ r.task := fun ht => hne (h.unique rid' rid r' r hr' hr ht)

/-- A schedule that is settled after a step of a run of another schedule was settled before. -/
theorem settled_of_setStage {s : Scheduler} {rid id : Int} {next : Option Stage} {r : Run}
    (hr : s.runs.get rid = some r) (hne : id ≠ r.task) (hset : (s.setStage rid next).Settled id) :
    s.Settled id := by
  intro rid' r' hr' ht
  by_cases he : rid' = rid
  · subst he
    rw [hr] at hr'
    cases hr'
    exact absurd ht.symm hne
  · refine hset rid' r' ?_ ht
    cases next with
    | none => exact (KeyTable.get_erase_of_ne _ he).trans hr'
    | some stage => exact (KeyTable.get_update_of_ne _ _ he).trans hr'

/-- A run moves on with as much left as before. -/
theorem sound_quiet {s : Scheduler} (h : Sound s) {rid : Int} {r : Run} {stage : Stage}
    (hr : s.runs.get rid = some r) (hs : r.stage ≠ .release) (hs' : stage ≠ .release)
    (hleft : stage.remaining.getD r.copy.createNumbers = r.left)
    (hi : ∀ ads i remaining auth, stage = .launching ads i remaining auth → 0 ≤ i) :
    Sound (s.setStage rid (some stage)) where
  toGuarded := h.toGuarded.setStage hr _
  held := h.held
  edition := by
    intro rid' r' hr' hne
    rcases get_setStage hr hr' with ⟨-, h'⟩ | ⟨_, rfl, -, rfl⟩
    · exact h.edition rid' r' h' hne
    · exact h.edition rid' r hr hs
  row := by
    intro rid' r' t hr' hne ht
    rcases get_setStage hr hr' with ⟨-, h'⟩ | ⟨_, rfl, -, rfl⟩
    · exact h.row rid' r' t h' hne ht
    · exact h.row rid' r t hr hs ht
  left := by
    intro rid' r' hr' hne
    rcases get_setStage hr hr' with ⟨-, h'⟩ | ⟨_, rfl, hn, rfl⟩
    · exact h.left rid' r' h' hne
    · cases hn
      have := h.left rid' r hr hs
      rw [← hleft] at this
      exact this
  index := by
    intro rid' r' ads i remaining auth hr' hst
    rcases get_setStage hr hr' with ⟨-, h'⟩ | ⟨_, rfl, hn, rfl⟩
    · exact h.index rid' r' ads i remaining auth h' hst
    · cases hn
      exact hi ads i remaining auth hst
  rest := by
    intro id t ht hset
    by_cases hid : id = r.task
    · have := hset rid { r with stage := stage } (by simp [setStage, hr]) hid.symm
      exact absurd this hs'
    · exact h.rest id t ht (settled_of_setStage hr hid hset)
  kept := h.kept.of_log rfl

/-- A run that ends, with or without a write to the row of its schedule, leaves that row within its
quota. -/
theorem sound_end {s : Scheduler} (h : Sound s) {rid : Int} {r : Run} (hr : s.runs.get rid = some r)
    (rows : CreateTasks) (hother : ∀ id, id ≠ r.task → rows.get id = s.rows.get id)
    (hseq : rows.seq = s.rows.seq) (hheld : rows = s.rows ∨ s.Unheld r.task)
    (hrest : ∀ t, rows.get r.task = some t → s.launched r.task + t.createNumbers ≤ s.quota r.task) :
    Sound ({ s with rows := rows }.setStage rid (some .release)) where
  toGuarded := Guarded.setStage (s := { s with rows := rows })
    ⟨h.guard, h.unique, h.starting, fun rid r hr => hseq ▸ h.known rid r hr⟩ hr _
  held := by
    intro l hl
    obtain ⟨t, ht, hp, hn, he⟩ := h.held l hl
    refine ⟨t, ?_, hp, hn, he⟩
    rcases hheld with rfl | hu
    · exact ht
    · exact (hother _ (hu l hl)).trans ht
  edition := by
    intro rid' r' hr' hne
    rcases get_setStage (s := { s with rows := rows }) hr hr' with ⟨-, h'⟩ | ⟨_, rfl, hn, rfl⟩
    · exact h.edition rid' r' h' hne
    · cases hn; exact absurd rfl hne
  row := by
    intro rid' r' t hr' hne ht
    rcases get_setStage (s := { s with rows := rows }) hr hr' with ⟨hrid, h'⟩ | ⟨_, rfl, hn, rfl⟩
    · exact h.row rid' r' t h' hne ((hother _ (h.other hr h' hrid)).symm.trans ht)
    · cases hn; exact absurd rfl hne
  left := by
    intro rid' r' hr' hne
    rcases get_setStage (s := { s with rows := rows }) hr hr' with ⟨-, h'⟩ | ⟨_, rfl, hn, rfl⟩
    · exact h.left rid' r' h' hne
    · cases hn; exact absurd rfl hne
  index := by
    intro rid' r' ads i remaining auth hr' hst
    rcases get_setStage (s := { s with rows := rows }) hr hr' with ⟨-, h'⟩ | ⟨_, rfl, hn, rfl⟩
    · exact h.index rid' r' ads i remaining auth h' hst
    · cases hn; cases hst
  rest := by
    intro id t ht hset
    by_cases hid : id = r.task
    · subst hid
      exact hrest t ht
    · refine h.rest id t ((hother id hid).symm.trans ht) ?_
      exact settled_of_setStage (s := { s with rows := rows }) hr hid hset
  kept := h.kept.of_log rfl

/-- An entry that no account counts. -/
theorem sound_record {s : Scheduler} (h : Sound s) {e : Entry} (he : ∀ id (a : Account), a.add id e = a)
    (hw : ∀ id, e ≠ .wroteBack id false) (hs : ∀ id, e ≠ .started id false) : Sound (s.record e) := by
  have hsame : ∀ id, (s.record e).launched id = s.launched id ∧ (s.record e).quota id = s.quota id ∧
      (s.record e).edition id = s.edition id :=
    fun id => figures_of_account (by rw [account_record, he])
  refine ⟨⟨h.guard, h.unique, h.starting, h.known⟩, ?_, ?_, h.row, ?_, h.index, ?_, h.kept.record ?_ hw hs⟩
  · intro l hm
    obtain ⟨t, ht, hp, hn, hle⟩ := h.held l hm
    exact ⟨t, ht, hp, hn, hle.trans (hsame _).2.2.symm⟩
  · exact fun rid r hr hne => (h.edition rid r hr hne).trans (hsame _).2.2.symm
  · intro rid r hr hne
    rw [(hsame _).1, (hsame _).2.1]
    exact h.left rid r hr hne
  · intro id t ht hset
    rw [(hsame _).1, (hsame _).2.1]
    exact h.rest id t ht hset
  · intro id
    rw [(hsame _).1, (hsame _).2.1]
    exact h.kept.launched id

theorem account_launched (s : Scheduler) (id k : Int) :
    account k (s.record (.launched id)).log =
      if id = k then { account k s.log with launched := (account k s.log).launched + 1 } else account k s.log :=
  account_record s _ k

/-- One more is launched of the schedule, and its quota and its edition stay. -/
theorem figures_launched (s : Scheduler) (id : Int) :
    (s.record (.launched id)).launched id = s.launched id + 1 ∧
      ∀ k, (s.record (.launched id)).quota k = s.quota k ∧ (s.record (.launched id)).edition k = s.edition k ∧
        (k ≠ id → (s.record (.launched id)).launched k = s.launched k) := by
  constructor
  · rw [launched, account_launched, if_pos rfl]
    rfl
  · intro k
    by_cases hk : k = id
    · subst hk
      rw [quota, edition, account_launched, if_pos rfl]
      exact ⟨rfl, rfl, fun hne => absurd rfl hne⟩
    · have hother : account k (s.record (.launched id)).log = account k s.log := by
        rw [account_launched, if_neg fun he => hk he.symm]
      obtain ⟨hl, hq, hed⟩ := figures_of_account hother
      exact ⟨hq, hed, fun _ => hl⟩

/-- A launch takes one from what the run has left. -/
theorem sound_launched {s : Scheduler} (h : Sound s) {rid : Int} {r : Run} {ads : List Bool}
    {i remaining : Int} {auth : Bool} (hr : s.runs.get rid = some r)
    (hst : r.stage = .launching ads i remaining auth) (hi : i < remaining) :
    Sound ((s.record (.launched r.task)).setStage rid
      (some (.launching ads (i + 1) (remaining - 1) auth))) := by
  have hs : r.stage ≠ .release := by rw [hst]; simp
  have hleft : r.left = remaining := by simp [Run.left, hst, Stage.remaining]
  have hpos := h.index rid r ads i remaining auth hr hst
  have hroom := h.left rid r hr hs
  obtain ⟨hl', hfig⟩ := figures_launched s r.task
  have hkept : Kept (s.record (.launched r.task)) := by
    refine h.kept.record (fun id => ?_) (fun _ he => by cases he) fun _ he => by cases he
    rw [(hfig id).1]
    by_cases hid : id = r.task
    · subst hid
      omega
    · rw [(hfig id).2.2 hid]
      exact h.kept.launched id
  refine ⟨Guarded.setStage (s := s.record (.launched r.task)) ⟨h.guard, h.unique, h.starting, h.known⟩ hr _,
    ?_, ?_, ?_, ?_, ?_, ?_, hkept.of_log rfl⟩
  · intro l hm
    obtain ⟨t, ht, hp, hn, hle⟩ := h.held l hm
    exact ⟨t, ht, hp, hn, hle.trans (hfig _).2.1.symm⟩
  · intro rid' r' hr' hne
    rcases get_setStage (s := s.record (.launched r.task)) hr hr' with ⟨-, h'⟩ | ⟨_, rfl, -, rfl⟩
    · exact (h.edition rid' r' h' hne).trans (hfig _).2.1.symm
    · exact (h.edition rid' r hr hs).trans (hfig _).2.1.symm
  · intro rid' r' t hr' hne ht
    rcases get_setStage (s := s.record (.launched r.task)) hr hr' with ⟨-, h'⟩ | ⟨_, rfl, -, rfl⟩
    · exact h.row rid' r' t h' hne ht
    · exact h.row rid' r t hr hs ht
  · intro rid' r' hr' hne
    rcases get_setStage (s := s.record (.launched r.task)) hr hr' with ⟨hrid, h'⟩ | ⟨_, rfl, hn, rfl⟩
    · have := h.left rid' r' h' hne
      rw [← (hfig _).2.2 (h.other hr h' hrid), ← (hfig _).1] at this
      exact this
    · cases hn
      have hq' := (hfig r.task).1
      simp only [Run.left, Stage.remaining, Option.getD_some]
      change (s.record (.launched r.task)).launched r.task + (remaining - 1) ≤
        (s.record (.launched r.task)).quota r.task
      omega
  · intro rid' r' ads' i' remaining' auth' hr' hst'
    rcases get_setStage (s := s.record (.launched r.task)) hr hr' with ⟨-, h'⟩ | ⟨_, rfl, hn, rfl⟩
    · exact h.index rid' r' ads' i' remaining' auth' h' hst'
    · cases hn
      cases hst'
      omega
  · intro id t ht hset
    by_cases hid : id = r.task
    · have := hset rid { r with stage := .launching ads (i + 1) (remaining - 1) auth }
        (by simp [setStage, hr]) hid.symm
      cases this
    · have := h.rest id t ht (settled_of_setStage (s := s.record (.launched r.task)) hr hid hset)
      rw [← (hfig _).2.2 hid, ← (hfig _).1] at this
      exact this

/-- A run that returned gives up the guard of its schedule. -/
theorem sound_release {s : Scheduler} (h : Sound s) {rid : Int} {r : Run} (hr : s.runs.get rid = some r)
    (hst : r.stage = .release) :
    Sound ({ s with running := s.running.filter (· ≠ r.task) }.setStage rid none) := by
  have get : ∀ rid' r', (s.runs.erase rid).get rid' = some r' → rid' ≠ rid ∧ s.runs.get rid' = some r' :=
    fun rid' r' h' => ⟨(s.runs.get_of_get_erase h').2, (s.runs.get_of_get_erase h').1⟩
  refine ⟨⟨?_, ?_, ?_, ?_⟩, h.held, ?_, ?_, ?_, ?_, ?_,
    h.kept.of_log rfl⟩
  · intro rid' r' hr'
    obtain ⟨hne, h'⟩ := get rid' r' hr'
    exact List.mem_filter.mpr ⟨h.guard rid' r' h', by simpa using h.other hr h' hne⟩
  · intro rid₁ rid₂ r₁ r₂ h₁ h₂ ht
    exact h.unique rid₁ rid₂ r₁ r₂ (get rid₁ r₁ h₁).2 (get rid₂ r₂ h₂).2 ht
  · intro now l todo htick
    obtain ⟨hg, hno⟩ := h.starting now l todo htick
    refine ⟨List.mem_filter.mpr ⟨hg, by simpa using (hno rid r hr).symm⟩, fun rid' r' hr' => ?_⟩
    exact hno rid' r' (get rid' r' hr').2
  · exact fun rid' r' hr' => h.known rid' r' (get rid' r' hr').2
  · exact fun rid' r' hr' hne => h.edition rid' r' (get rid' r' hr').2 hne
  · exact fun rid' r' t hr' hne ht => h.row rid' r' t (get rid' r' hr').2 hne ht
  · exact fun rid' r' hr' hne => h.left rid' r' (get rid' r' hr').2 hne
  · exact fun rid' r' ads i remaining auth hr' hs => h.index rid' r' ads i remaining auth (get rid' r' hr').2 hs
  · intro id t ht hset
    refine h.rest id t ht fun rid' r' hr' ht' => ?_
    by_cases he : rid' = rid
    · subst he
      rw [hr] at hr'
      cases hr'
      exact hst
    · exact hset rid' r' ((KeyTable.get_erase_of_ne _ he).trans hr') ht'

theorem sound_writeBack {s : Scheduler} (h : Sound s) {rid : Int} {r : Run} {remaining : Int} {auth : Bool}
    (hr : s.runs.get rid = some r) (hst : r.stage = .settle remaining auth) (hu : s.Unheld r.task) :
    Sound ((s.writeBack r remaining).setStage rid (some .release)) := by
  have hs : r.stage ≠ .release := by rw [hst]; simp
  have hleft : r.left = remaining := by simp [Run.left, hst, Stage.remaining]
  have hroom := h.left rid r hr hs
  unfold writeBack
  cases hrow : s.rows.get r.task with
  | none =>
    refine sound_end h hr s.rows (fun _ _ => rfl) rfl (Or.inl rfl) fun t ht => ?_
    rw [hrow] at ht
    cases ht
  | some t₀ =>
    have hed : (r.edition == s.edition r.task) = true := by rw [h.edition rid r hr hs]; exact beq_self_eq_true _
    refine sound_record (e := .wroteBack r.task (r.edition == s.edition r.task))
      (sound_end h hr _ ?_ ?_ (Or.inr hu) ?_) (fun _ _ => rfl) ?_ ?_
    · intro id hne
      split
      · exact KeyTable.get_erase_of_ne _ hne
      · exact KeyTable.get_update_of_ne _ _ hne
    · split <;> rfl
    · intro t ht
      split at ht
      · rw [deleteCreateTask, KeyTable.get_erase_self] at ht
        cases ht
      · rw [setCreateTaskRemaining, KeyTable.get_update_self, hrow] at ht
        cases ht
        exact hleft ▸ hroom
    · intro id he
      rw [hed] at he
      cases he
    · exact fun id he => by cases he

theorem sound_run {s : Scheduler} {rid : Int} {a : Answer} {r : Run} {eff : Effect} {next : Option Stage}
    (h : Sound s) (hc : Timely s (.run rid a)) (hr : s.runs.get rid = some r)
    (hs : r.step a = some (eff, next)) : Sound ((s.apply r eff).setStage rid next) := by
  obtain ⟨hunheld, hpanic⟩ := hc r hr
  cases Run.turn hs with
  | quiet stage hne hne' hleft hi =>
    refine sound_quiet h hr hne hne' hleft fun ads i remaining auth he => ?_
    rcases hi ads i remaining auth he with rfl | ⟨ads', i', remaining', auth', hst, rfl⟩
    · exact le_rfl
    · have := h.index rid r ads' i' remaining' auth' hr hst
      omega
  | quit hne ha =>
    refine sound_end h hr s.rows (fun _ _ => rfl) rfl (Or.inl rfl) fun t ht => ?_
    have hfull : r.left = r.copy.createNumbers := by
      rcases ha with rfl | hst
      · exact hpanic rfl
      · simp [Run.left, hst, Stage.remaining]
    rw [h.row rid r t hr hne ht, ← hfull]
    exact h.left rid r hr hne
  | delete hst =>
    refine sound_end h hr _ (fun id hne => KeyTable.get_erase_of_ne _ hne) rfl (Or.inr (hunheld hst)) ?_
    intro t ht
    rw [deleteCreateTask, KeyTable.get_erase_self] at ht
    cases ht
  | launched ads i remaining auth hst hi => exact sound_launched h hr hst hi
  | settle remaining auth hst => exact sound_writeBack h hr hst (hunheld (Or.inr ⟨_, _, hst⟩))
  | release hst => exact sound_release h hr hst

/-! ## Steps of the tick -/

theorem sound_list {s : Scheduler} (h : Sound s) : Sound { s with
    tick := .testing s.clock ((listActiveCreateTasks s.rows).map fun r => ⟨r.1, r.2, s.edition r.1⟩) } := by
  refine ⟨⟨h.guard, h.unique, fun now l todo ht => (by cases ht), h.known⟩, ?_, h.edition, h.row, h.left,
    h.index, h.rest, h.kept.of_log rfl⟩
  intro l hl
  obtain ⟨hm, -⟩ := List.mem_filter.mp hl
  obtain ⟨r, hr, rfl⟩ := List.mem_map.mp hm
  obtain ⟨hrow, hp⟩ := List.mem_filter.mp hr
  exact ⟨r.2, s.rows.mem_rows_iff.mp hrow, (by simpa using hp : _ ∧ _).1, rfl, rfl⟩

/-- The tick moves on and holds no new copy. -/
theorem sound_tick {s : Scheduler} (h : Sound s) {tick : Tick} (ht : ∀ now l todo, tick ≠ .starting now l todo)
    (hheld : ∀ l ∈ ({ s with tick := tick } : Scheduler).held, l ∈ s.held) :
    Sound { s with tick := tick } :=
  ⟨⟨h.guard, h.unique, fun now l todo he => absurd he (ht now l todo), h.known⟩,
    fun l hl => h.held l (hheld l hl), h.edition, h.row, h.left, h.index, h.rest,
    h.kept.of_log rfl⟩

/-- The tick sets the guard of a schedule that has no run. -/
theorem sound_guard {s : Scheduler} (h : Sound s) {now : Nat} {l : Listed} {todo : List Listed}
    (htick : s.tick = .testing now (l :: todo)) (hg : l.task ∉ s.running) (hd : due now l.copy = true) :
    Sound { s with running := l.task :: s.running, tick := .starting now l todo } := by
  refine ⟨⟨fun rid r hr => List.mem_cons_of_mem _ (h.guard rid r hr), h.unique, ?_, h.known⟩, ?_, h.edition,
    h.row, h.left, h.index, h.rest, h.kept.of_log rfl⟩
  · intro now' l' todo' he
    cases he
    exact ⟨List.mem_cons_self .., fun rid r hr ht => hg (ht ▸ h.guard rid r hr)⟩
  · intro l' hl'
    refine h.held l' ?_
    rw [held, htick]
    simpa [held, hd] using hl'

/-- The tick starts a run from a copy that is the row as it stands. -/
theorem sound_start {s : Scheduler} (h : Sound s) {now : Nat} {l : Listed} {todo : List Listed}
    (htick : s.tick = .starting now l todo) :
    Sound ({ s with
      rows := setCreateTaskLastRun s.rows s.clock l.task
      tick := .testing now todo
      runs := s.runs.insert ⟨l.task, l.copy, l.edition, .setup⟩ }.record (.started l.task (s.live l.task))) := by
  obtain ⟨hg, hno⟩ := h.starting now l todo htick
  have hl : l ∈ s.held := by rw [held, htick]; exact List.mem_cons_self ..
  obtain ⟨t, ht, hp, hn, hed⟩ := h.held l hl
  have hlive : s.live l.task = true := by rw [live, ht]; simp [hp]
  -- the row keeps its number and its pause
  have hrows := sound_update h l.task (fun t => { t with lastRunAt := some (s.clock / 1000000000) }) (fun _ => rfl)
    (Or.inr fun _ hp => hp)
  have get : ∀ rid r, (s.runs.insert ⟨l.task, l.copy, l.edition, .setup⟩).get rid = some r →
      (rid = s.runs.nextId ∧ r = ⟨l.task, l.copy, l.edition, .setup⟩) ∨ s.runs.get rid = some r := by
    intro rid r hr
    rw [KeyTable.get_insert] at hr
    split at hr
    · cases hr; exact Or.inl ⟨‹_›, rfl⟩
    · exact Or.inr hr
  refine sound_record ?_ (fun _ _ => rfl) (fun _ he => by cases he) fun id he => by rw [hlive] at he; cases he
  refine ⟨⟨?_, ?_, fun now l todo he => (by cases he), ?_⟩, ?_, ?_, ?_, ?_, ?_, ?_,
    h.kept.of_log rfl⟩
  · intro rid r hr
    rcases get rid r hr with ⟨-, rfl⟩ | hr
    · exact hg
    · exact h.guard rid r hr
  · intro rid rid' r r' hr hr' ht'
    rcases get rid r hr with ⟨rfl, rfl⟩ | hr
    · rcases get rid' r' hr' with ⟨rfl, -⟩ | hr'
      · rfl
      · exact absurd ht'.symm (hno rid' r' hr')
    · rcases get rid' r' hr' with ⟨-, rfl⟩ | hr'
      · exact absurd ht' (hno rid r hr)
      · exact h.unique rid rid' r r' hr hr' ht'
  · intro rid r hr
    rcases get rid r hr with ⟨-, rfl⟩ | hr
    · exact s.rows.get_le_seq ht
    · exact h.known rid r hr
  · intro l' hl'
    refine hrows.held l' ?_
    rw [held, htick]
    exact List.mem_cons_of_mem _ hl'
  · intro rid r hr hne
    rcases get rid r hr with ⟨-, rfl⟩ | hr
    · exact hed
    · exact h.edition rid r hr hne
  · intro rid r t' hr hne ht'
    rcases get rid r hr with ⟨-, rfl⟩ | hr
    · simp only [setCreateTaskLastRun, KeyTable.get_update_self, ht] at ht'
      cases ht'
      exact hn
    · exact hrows.row rid r t' hr hne ht'
  · intro rid r hr hne
    rcases get rid r hr with ⟨-, rfl⟩ | hr
    · have := h.rest l.task t ht fun rid r hr ht' => absurd ht' (hno rid r hr)
      rw [hn] at this
      exact this
    · exact h.left rid r hr hne
  · intro rid r ads i remaining auth hr hst
    rcases get rid r hr with ⟨-, rfl⟩ | hr
    · cases hst
    · exact h.index rid r ads i remaining auth hr hst
  · intro id t' ht' hset
    refine hrows.rest id t' ht' fun rid r hr htask => hset rid r ?_ htask
    exact s.runs.get_insert_of_some _ hr

/-! ## Edits -/

theorem account_stored (s : Scheduler) (id n k : Int) :
    account k (s.record (.stored id n)).log =
      if id = k then ⟨(account k s.log).edition + 1, n, 0⟩ else account k s.log :=
  account_record s _ k

/-- A new number for a schedule without unsettled runs and without held copies. -/
theorem sound_stored {s : Scheduler} (h : Sound s) {id n : Int} {rows : CreateTasks}
    (hother : ∀ k, k ≠ id → rows.get k = s.rows.get k) (hseq : s.rows.seq ≤ rows.seq)
    (hrow : ∀ t, rows.get id = some t → t.createNumbers = n) (hu : s.Unheld id) (hset : s.Settled id) :
    Sound ({ s with rows := rows }.record (.stored id n)) := by
  have ha := fun k => account_stored { s with rows := rows } id n k
  have unsettled : ∀ rid r, s.runs.get rid = some r → r.stage ≠ .release → r.task ≠ id :=
    fun rid r hr hne ht => hne (hset rid r hr ht)
  have hsame : ∀ k, k ≠ id → ({ s with rows := rows }.record (.stored id n)).launched k = s.launched k ∧
      ({ s with rows := rows }.record (.stored id n)).quota k = s.quota k ∧
      ({ s with rows := rows }.record (.stored id n)).edition k = s.edition k := fun k hk =>
    figures_of_account ((ha k).trans (if_neg fun he => hk he.symm))
  have hl' : ({ s with rows := rows }.record (.stored id n)).launched id = 0 := by
    rw [launched, ha, if_pos rfl]
  have hq' : ({ s with rows := rows }.record (.stored id n)).quota id = max n 0 := by
    rw [quota, ha, if_pos rfl]
  have hkept : Kept { s with rows := rows } := h.kept.of_log rfl
  refine ⟨⟨h.guard, h.unique, h.starting, fun rid r hr => ?_⟩, ?_, ?_, ?_, ?_, h.index, ?_,
    hkept.record (fun k => ?_) (fun _ he => by cases he) fun _ he => by cases he⟩
  · have := h.known rid r hr
    change r.task ≤ (rows.seq : Int)
    omega
  · intro l hm
    obtain ⟨t, ht, hp, hn, he⟩ := h.held l hm
    exact ⟨t, (hother _ (hu l hm)).trans ht, hp, hn, he.trans (hsame _ (hu l hm)).2.2.symm⟩
  · exact fun rid r hr hne => (h.edition rid r hr hne).trans (hsame _ (unsettled rid r hr hne)).2.2.symm
  · exact fun rid r t hr hne ht =>
      h.row rid r t hr hne ((hother _ (unsettled rid r hr hne)).symm.trans ht)
  · intro rid r hr hne
    obtain ⟨hl, hq, -⟩ := hsame _ (unsettled rid r hr hne)
    rw [hl, hq]
    exact h.left rid r hr hne
  · intro k t ht hset'
    by_cases hk : k = id
    · subst hk
      rw [hl', hq', hrow t ht]
      omega
    · obtain ⟨hl, hq, -⟩ := hsame k hk
      rw [hl, hq]
      exact h.rest k t ((hother k hk).symm.trans ht) hset'
  · by_cases hk : k = id
    · subst hk
      rw [hl', hq']
      omega
    · obtain ⟨hl, hq, -⟩ := hsame k hk
      rw [hl, hq]
      exact h.kept.launched k

/-! ## Runs -/

/-- The tick tests the next copy of its list. -/
theorem sound_test {s s' : Scheduler} (h : Sound s) (hs : s.stepTick .test = some s') : Sound s' := by
  simp only [stepTick] at hs
  split at hs
  · cases hs
    exact sound_tick h (fun _ _ _ he => by cases he) fun l hl => by cases hl
  · rename_i now l todo htick
    have sub : ∀ l' ∈ ({ s with tick := .testing now todo } : Scheduler).held, l' ∈ s.held := by
      intro l' hl'
      rw [Scheduler.held, htick]
      exact List.Sublist.subset ((List.sublist_cons_self l todo).filter _) hl'
    split at hs
    · cases hs
      exact sound_tick h (fun _ _ _ he => by cases he) sub
    · split at hs
      · cases hs
        exact sound_guard h htick ‹_› ‹_›
      · cases hs
        exact sound_tick h (fun _ _ _ he => by cases he) sub
  · cases hs

/-- A new schedule has an id that nothing knows. -/
theorem sound_post {s : Scheduler} (h : Sound s) (t : CreateTask) :
    Sound ({ s with rows := s.rows.insert t }.record (.stored s.rows.nextId t.createNumbers)) := by
  refine sound_stored h ?_ ?_ ?_ ?_ ?_
  · intro k hk
    rw [KeyTable.get_insert, if_neg hk]
  · rw [KeyTable.seq_insert]
    omega
  · intro t' ht'
    rw [KeyTable.get_insert_self] at ht'
    cases ht'
    rfl
  · intro l hl hid
    obtain ⟨t', ht', -⟩ := h.held l hl
    rw [hid, KeyTable.get_nextId] at ht'
    cases ht'
  · intro rid r hr hid
    have := h.known rid r hr
    simp only [hid, KeyTable.nextId] at this
    omega

theorem sound_put {s : Scheduler} (h : Sound s) {id : Int} (req : CreateTask) (hu : s.Unheld id) (hset : s.Settled id) :
    Sound (s.store id req) := by
  unfold store
  split
  · rename_i t ht
    refine sound_stored h ?_ le_rfl ?_ hu hset
    · exact fun k hk => KeyTable.get_update_of_ne _ _ hk
    · intro t' ht'
      rw [updateCreateTask, KeyTable.get_update_self, ht] at ht'
      cases ht'
      rfl
  · exact h

theorem Sound.step {s s' : Scheduler} {e : Event} (h : Sound s) (hc : Timely s e)
    (hs : step s e = some s') : Sound s' := by
  cases e with
  | clock elapsed => cases hs; exact ⟨⟨h.guard, h.unique, h.starting, h.known⟩, h.held, h.edition, h.row, h.left,
      h.index, h.rest, h.kept.of_log rfl⟩
  | list =>
    simp only [Scheduler.step, stepTick] at hs
    split at hs
    · cases hs; exact sound_list h
    · cases hs
  | test => exact sound_test h hs
  | start =>
    simp only [Scheduler.step, stepTick] at hs
    split at hs
    · cases hs; exact sound_start h ‹_›
    · cases hs
  | run rid a =>
    simp only [Scheduler.step, stepRun] at hs
    split at hs
    · split at hs
      · cases hs; exact sound_run h hc ‹_› ‹_›
      · cases hs
    · cases hs
  | post req =>
    simp only [Scheduler.step] at hs
    split at hs
    · cases hs; exact sound_post h _
    · cases hs; exact h
  | put id req => cases hs; exact sound_put h req hc.1 hc.2
  | pause id => cases hs; exact sound_update h id _ (fun _ => rfl) (Or.inl hc)
  | resume id => cases hs; exact sound_update h id _ (fun _ => rfl) (Or.inr fun _ _ => rfl)
  | delete id => cases hs; exact sound_delete h hc

theorem account_boot (id : Int) : ∀ l : List (Int × CreateTask),
    (account id (l.map fun r => .stored r.1 r.2.createNumbers)).launched = 0 ∧
      ((∀ r ∈ l, r.1 ≠ id) ∨
        ∃ t, (id, t) ∈ l ∧ (account id (l.map fun r => .stored r.1 r.2.createNumbers)).quota = t.createNumbers) := by
  intro l
  induction l using List.reverseRecOn with
  | nil => exact ⟨rfl, Or.inl fun r hr => absurd hr List.not_mem_nil⟩
  | append_singleton l r ih =>
    rw [List.map_append, List.map_singleton, account_snoc]
    by_cases hr : r.1 = id
    · simp only [Account.add, if_pos hr]
      exact ⟨trivial, Or.inr ⟨r.2, List.mem_append_right _ (by simp [← hr]), rfl⟩⟩
    · simp only [Account.add, if_neg hr]
      refine ⟨ih.1, ih.2.imp (fun h r' hr' => ?_) fun ⟨t, ht, hq⟩ => ⟨t, List.mem_append_left _ ht, hq⟩⟩
      rcases List.mem_append.mp hr' with hr' | hr'
      · exact h r' hr'
      · rw [List.mem_singleton.mp hr']
        exact hr

theorem sound_boot (rows : CreateTasks) : Sound (boot rows) := by
  have none : ∀ rid r, (boot rows).runs.get rid ≠ some r := fun rid r hr => by simp [boot] at hr
  have zero : ∀ id, (boot rows).launched id = 0 := fun id => (account_boot id rows.rows).1
  refine ⟨⟨?_, ?_, fun now l todo he => (by cases he), ?_⟩, fun l hl => absurd hl List.not_mem_nil, ?_, ?_,
    ?_, ?_, ?_, ⟨?_, ?_, ?_⟩⟩
  · exact fun rid r hr => absurd hr (none rid r)
  · exact fun rid rid' r r' hr => absurd hr (none rid r)
  · exact fun rid r hr => absurd hr (none rid r)
  · exact fun rid r hr => absurd hr (none rid r)
  · exact fun rid r t hr => absurd hr (none rid r)
  · exact fun rid r hr => absurd hr (none rid r)
  · exact fun rid r ads i remaining auth hr => absurd hr (none rid r)
  · intro id t ht _
    rw [zero, quota]
    have hm : (id, t) ∈ rows.rows := rows.mem_rows_iff.mpr ht
    rcases (account_boot id rows.rows).2 with hno | ⟨t', hm', hq⟩
    · exact absurd rfl (hno _ hm)
    · obtain rfl := rows.unique hm hm'
      rw [boot, hq]
      omega
  · intro id
    rw [zero, quota]
    omega
  · intro id hm
    obtain ⟨r, -, he⟩ := List.mem_map.mp hm
    cases he
  · intro id hm
    obtain ⟨r, -, he⟩ := List.mem_map.mp hm
    cases he

/-- **Schedules keep their numbers.** In every timely run, whatever ticks, runs, edits and launch results
it has, no schedule launches more than its last edit stored, no older count replaces an edit, and no run
starts from a row that is paused or gone. -/
theorem kept_of_timely {rows : CreateTasks} {es : List Event} {s : Scheduler}
    (hr : StepRun.Run step Timely (boot rows) es s) : Kept s :=
  (hr.invariant (fun _ _ _ hc h hs => h.step hc hs) (sound_boot rows)).kept

/-- One schedule of two instances. -/
def oneSchedule : CreateTasks := KeyTable.empty.insert ⟨1, 30, 2, false, none⟩

/-! ### The test of the condition -/

def unheld (s : Scheduler) (id : Int) : Bool := s.held.all fun l => l.task ≠ id

def settled (s : Scheduler) (id : Int) : Bool :=
  s.runs.rows.all fun r => r.2.task ≠ id ∨ r.2.stage = .release

/-- What a run may do at its stage. -/
def timelyRun (s : Scheduler) (a : Answer) (r : Run) : Bool :=
  (match r.stage with
    | .drop | .settle .. => s.unheld r.task
    | _ => true) &&
  decide (a = .panic → r.left = r.copy.createNumbers)

def timely (s : Scheduler) : Event → Bool
  | .put id _ => s.unheld id && s.settled id
  | .pause id => s.unheld id
  | .delete id => s.unheld id
  | .run rid a => (s.runs.get rid).all (s.timelyRun a)
  | _ => true

theorem unheld_of_test {s : Scheduler} {id : Int} (h : s.unheld id = true) : s.Unheld id := fun l hl =>
  of_decide_eq_true (List.all_eq_true.mp h l hl)

theorem settled_of_test {s : Scheduler} {id : Int} (h : s.settled id = true) : s.Settled id := by
  intro rid r hr ht
  have hor : r.task ≠ id ∨ r.stage = .release :=
    of_decide_eq_true (List.all_eq_true.mp h (rid, r) (s.runs.mem_rows_iff.mpr hr))
  exact hor.resolve_left fun hne => hne ht

theorem timely_of_test {s : Scheduler} {e : Event} (h : s.timely e = true) : Timely s e := by
  cases e with
  | put id req =>
    obtain ⟨hu, hset⟩ := (Bool.and_eq_true _ _).mp h
    exact ⟨unheld_of_test hu, settled_of_test hset⟩
  | pause id => exact unheld_of_test h
  | delete id => exact unheld_of_test h
  | run rid a =>
    intro r hr
    rw [timely, hr] at h
    obtain ⟨hu, hp⟩ := (Bool.and_eq_true _ _).mp h
    refine ⟨fun hst => unheld_of_test ?_, of_decide_eq_true hp⟩
    obtain hst | ⟨remaining, auth, hst⟩ := hst <;> rw [hst] at hu <;> exact hu
  | _ => trivial

/-- The first run launches one of two instances. Then the user asks for three; two launches of the second run
succeed in the first availability domain, the last one in the second. -/
def editedBetween : List Event :=
  [.list, .test, .start, .test, .run 1 (.setup (.ready [true])), .run 1 .none, .run 1 (.launch .ok), .run 1 .none,
    .run 1 .none, .run 1 .none, .run 1 .none, .put 1 ⟨1, 30, 3, false, none⟩, .clock 30000000000,
    .list, .test, .start, .test, .run 2 (.setup (.ready [true, true])), .run 2 .none, .run 2 (.launch .ok),
    .run 2 (.launch .ok), .run 2 .none, .run 2 .none, .run 2 (.launch .ok), .run 2 .none, .run 2 .none,
    .run 2 .none, .run 2 .none]

theorem kept_of_timely_editedBetween : ∃ s, StepRun.Run step Timely (boot oneSchedule) editedBetween s ∧
    s.log = [.stored 1 2, .started 1 true, .launched 1, .wroteBack 1 true, .stored 1 3, .started 1 true,
      .launched 1, .launched 1, .launched 1, .wroteBack 1 true] ∧ s.rows.get 1 = none ∧ Kept s := by
  obtain ⟨s, hs⟩ : ∃ s, StepRun.execWhile step timely (boot oneSchedule) editedBetween = some s :=
    Option.isSome_iff_exists.mp rfl
  have hr := StepRun.run_of_execWhile (fun _ _ => timely_of_test) hs
  have hexec := StepRun.exec_of_run hr
  exact ⟨s, hr, StepRun.read_of_exec (f := log) hexec rfl,
    StepRun.read_of_exec (f := fun s => s.rows.get 1) hexec rfl, kept_of_timely hr⟩

/-! ## A run that creates too much -/

/-- The first run launches one of two instances and takes its time; the next tick lists the schedule
before that run writes 1 back and tests the guard after its release. -/
def slowRun : List Event :=
  [.list, .test, .start, .test, .run 1 (.setup (.ready [true])), .run 1 .none, .run 1 (.launch .ok),
    .run 1 .none, .run 1 .none, .clock 30000000000, .list, .run 1 .none, .run 1 .none, .test, .start,
    .run 2 (.setup (.ready [true, true])), .run 2 .none, .run 2 (.launch .ok), .run 2 .none, .run 2 .none,
    .run 2 (.launch .ok)]

theorem stale_copy_overcreates : ∃ s,
    StepRun.Run step (StepRun.Always Scheduler Event) (boot oneSchedule) slowRun s ∧ ¬ Kept s := by
  obtain ⟨s, hs⟩ : ∃ s, StepRun.exec step (boot oneSchedule) slowRun = some s :=
    Option.isSome_iff_exists.mp rfl
  have hlog : s.log = [.stored 1 2, .started 1 true, .launched 1, .wroteBack 1 true, .started 1 true,
      .launched 1, .launched 1] := StepRun.read_of_exec (f := log) hs rfl
  refine ⟨s, StepRun.run_of_exec hs, fun h => ?_⟩
  have := h.launched 1
  rw [launched, quota, hlog] at this
  exact absurd this (by decide)

end Scheduler

end OciHelper.Schedule
