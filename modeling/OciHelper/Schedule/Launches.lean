import Mathlib.Data.Nat.Find
import OciHelper.Schedule.Scheduler

/-!
# The launches of a run

* `attempts`, `launches` : the two loops of `runCreateTask`, with the answers that they get;
* `runCreateTask` : the loops, and what they leave in the row of the schedule;
* `feeds_launches` : the loops are those of `Run.step`;
* `entries` : the availability domains that are tried, each with how many instances are missing then;
* `meets_iff_exhaustive` : a run launches what is missing, or fails in every domain, just under a condition on these.
-/

namespace OciHelper.Schedule.Launches

/-! ## The loops -/

/-- An availability domain, and how the attempts in it would end. -/
structure Domain where
  named : Bool := true
  answer : Nat → Launch

structure Tally where
  success : Int := 0
  remaining : Int
  authFailure : Bool := false

/-- The attempts in one domain from the `i`-th on, and their answers. The bound shrinks with each success. -/
def attempts (answer : Nat → Launch) (i : Nat) (t : Tally) : Tally × List Launch :=
  if i < t.remaining then
    match answer i with
    | .ok =>
      let r := attempts answer (i + 1) { t with success := t.success + 1, remaining := t.remaining - 1 }
      (r.1, .ok :: r.2)
    | .unauthorized => ({ t with authFailure := true }, [.unauthorized])
    | .failed =>
      let r := attempts answer (i + 1) t
      (r.1, .failed :: r.2)
  else (t, [])
termination_by (t.remaining - i).toNat

/-- The answers of every domain, none for one that is passed over. -/
def launches : List Domain → Tally → Tally × List (List Launch)
  | [], t => (t, [])
  | d :: ds, t =>
    if !d.named ∨ t.remaining ≤ 0 then ((launches ds t).1, [] :: (launches ds t).2)
    else
      let r := attempts d.answer 0 t
      ((launches ds r.1).1, r.2 :: (launches ds r.1).2)

/-- The loops of a run with the copy `task` of the row `id`. -/
def loops (task : CreateTask) (ads : List Domain) : Tally × List (List Launch) :=
  launches ads { remaining := task.createNumbers }

/-- What a run leaves in the table. -/
def runCreateTask (rows : CreateTasks) (id : Int) (task : CreateTask) (ads : List Domain) : CreateTasks :=
  let t := (loops task ads).1
  if t.authFailure then deleteCreateTask rows id
  else if t.remaining ≤ 0 then deleteCreateTask rows id
  else setCreateTaskRemaining rows id t.remaining

/-! ## The loops as steps of a run -/

/-- The run takes the answers, and `n` of its steps launch an instance. -/
inductive Feeds : Run → List Answer → Nat → Run → Prop
  | nil (r : Run) : Feeds r [] 0 r
  | quiet {r r' : Run} {a : Answer} {as : List Answer} {stage : Stage} {n : Nat}
      (h : r.step a = some (.none, some stage)) (h' : Feeds { r with stage } as n r') : Feeds r (a :: as) n r'
  | launched {r r' : Run} {a : Answer} {as : List Answer} {stage : Stage} {n : Nat}
      (h : r.step a = some (.launched, some stage)) (h' : Feeds { r with stage } as n r') :
      Feeds r (a :: as) (n + 1) r'

theorem Feeds.append {r r' r'' : Run} {as bs : List Answer} {m n : Nat} (h : Feeds r as m r') (h' : Feeds r' bs n r'') :
    Feeds r (as ++ bs) (m + n) r'' := by
  induction h with
  | nil r => rwa [List.nil_append, Nat.zero_add]
  | quiet hs _ ih => exact .quiet hs (ih h')
  | launched hs _ ih => rw [Nat.add_right_comm]; exact .launched hs (ih h')

/-- The attempts in one domain. -/
theorem feeds_attempts (r : Run) (ads : List Bool) (answer : Nat → Launch) (i : Nat) (t : Tally) :
    ∃ as n, Feeds { r with stage := .launching ads i t.remaining t.authFailure } as n
        { r with stage := .domains ads (attempts answer i t).1.remaining (attempts answer i t).1.authFailure } ∧
      (attempts answer i t).1.success = t.success + n := by
  fun_induction attempts answer i t with
  | case1 i t hlt hok _ ih =>
    obtain ⟨as, n, hfeeds, hn⟩ := ih
    refine ⟨.launch .ok :: as, n + 1, .launched ?_ hfeeds, by rw [hn]; push_cast; omega⟩
    simp [Run.step, hlt]
  | case2 i t hlt hbad =>
    refine ⟨[.launch .unauthorized], 0, .quiet ?_ (.nil _), by simp⟩
    simp [Run.step, hlt]
  | case3 i t hlt hfailed _ ih =>
    obtain ⟨as, n, hfeeds, hn⟩ := ih
    refine ⟨.launch .failed :: as, n, .quiet ?_ hfeeds, hn⟩
    simp [Run.step, hlt]
  | case4 i t hge =>
    refine ⟨[.none], 0, .quiet ?_ (.nil _), by simp⟩
    simp [Run.step, hge]

theorem feeds_launches (r : Run) (ads : List Domain) (t : Tally) :
    ∃ as n, Feeds { r with stage := .domains (ads.map Domain.named) t.remaining t.authFailure } as n
        { r with stage := .settle (launches ads t).1.remaining (launches ads t).1.authFailure } ∧
      (launches ads t).1.success = t.success + n := by
  induction ads generalizing t with
  | nil => exact ⟨[.none], 0, .quiet rfl (.nil _), by simp [launches]⟩
  | cons d ds ih =>
    unfold launches
    split
    · next hskip =>
      obtain ⟨as, n, hfeeds, hn⟩ := ih t
      refine ⟨.none :: as, n, .quiet ?_ hfeeds, hn⟩
      simp only [List.map_cons, Run.step, if_pos hskip]
    · next henter =>
      obtain ⟨as, m, hfeeds, hm⟩ := feeds_attempts r (ds.map Domain.named) d.answer 0 t
      obtain ⟨bs, n, hfeeds', hn⟩ := ih (attempts d.answer 0 t).1
      refine ⟨.none :: (as ++ bs), m + n, .quiet ?_ (hfeeds.append hfeeds'), ?_⟩
      · simp only [List.map_cons, Run.step, if_neg henter]
        rfl
      · rw [hn, hm]
        push_cast
        omega

/-! ## How many attempts a domain gets -/

section
variable (answer : Nat → Launch)

/-- The successes among the first `k` answers. -/
def okCount (k : Nat) : Nat := (List.range k).countP fun i => answer i = .ok

theorem okCount_succ (k : Nat) : okCount answer (k + 1) = okCount answer k + if answer k = .ok then 1 else 0 := by
  simp [okCount, List.range_succ]

theorem okCount_of_forall {k : Nat} (h : ∀ i < k, answer i = .ok) : okCount answer k = k := by
  unfold okCount
  rw [List.countP_eq_length.mpr fun i hi => by simpa using h i (List.mem_range.mp hi), List.length_range]

theorem exists_stop (r : Nat) : ∃ k, r ≤ k + okCount answer k := ⟨r, Nat.le_add_right r _⟩

/-- The attempts that a domain gets if `r` instances are missing: the loop ends when the attempts and the successes
among them add up to `r`. -/
def stop (r : Nat) : Nat := Nat.find (exists_stop answer r)

/-- How many instances are missing after a domain. -/
def missing (r : Nat) : Nat := r - okCount answer (stop answer r)

theorem le_stop (r : Nat) : r ≤ stop answer r + okCount answer (stop answer r) := Nat.find_spec (exists_stop answer r)

variable {answer} in
theorem lt_of_lt_stop {r k : Nat} (h : k < stop answer r) : k + okCount answer k < r :=
  Nat.lt_of_not_le (Nat.find_min (exists_stop answer r) h)

theorem stop_pos {r : Nat} (hr : 0 < r) : 0 < stop answer r := by
  refine Nat.pos_of_ne_zero fun h0 => ?_
  have hle := le_stop answer r
  rw [h0] at hle
  exact absurd hle (Nat.not_le.mpr hr)

theorem okCount_stop_le (r : Nat) : okCount answer (stop answer r) ≤ r := by
  cases hk : stop answer r with
  | zero => exact Nat.zero_le r
  | succ k =>
    have hlt := lt_of_lt_stop (by omega : k < stop answer r)
    have hsucc := okCount_succ answer k
    split at hsucc <;> omega

variable {answer}

/-- The loop from the `i`-th attempt on. -/
theorem attempts_eq (hauth : ∀ i, answer i ≠ .unauthorized) (r n : Nat) : ∀ {i : Nat} {t : Tally},
    i + n = stop answer r → t.remaining = r - okCount answer i →
    ∃ u, attempts answer i t = (u, (List.range' i n).map answer) ∧
      u.success = t.success + okCount answer (stop answer r) - okCount answer i ∧
      u.remaining = r - okCount answer (stop answer r) ∧ u.authFailure = t.authFailure := by
  induction n with
  | zero =>
    intro i t hi ht
    have hle := le_stop answer r
    obtain rfl : i = stop answer r := hi
    unfold attempts
    rw [if_neg (by omega)]
    exact ⟨t, rfl, by omega, ht, rfl⟩
  | succ n ih =>
    intro i t hi ht
    have hlt : i + okCount answer i < r := lt_of_lt_stop (by omega)
    have hsucc := okCount_succ answer i
    unfold attempts
    rw [if_pos (by omega), List.range'_succ, List.map_cons]
    cases hi' : answer i with
    | ok =>
      rw [hi', if_pos rfl] at hsucc
      obtain ⟨u, hu, hsuccess, hremaining, ha⟩ :=
        ih (t := { t with success := t.success + 1, remaining := t.remaining - 1 })
          (by omega : i + 1 + n = stop answer r) (by dsimp only; omega)
      refine ⟨u, ?_, ?_, hremaining, ha⟩
      · dsimp only
        rw [hu]
      · rw [hsuccess]
        dsimp only
        omega
    | unauthorized => exact absurd hi' (hauth i)
    | failed =>
      rw [hi', if_neg (by decide)] at hsucc
      obtain ⟨u, hu, hsuccess, hremaining, ha⟩ := ih (t := t) (by omega : i + 1 + n = stop answer r) (by omega)
      refine ⟨u, ?_, ?_, hremaining, ha⟩
      · dsimp only
        rw [hu]
      · rw [hsuccess]
        omega

/-- A domain that is tried with nothing failing gets half as many attempts as there are instances missing. -/
theorem failed_mem_iff (hauth : ∀ i, answer i ≠ .unauthorized) (r : Nat) :
    Launch.failed ∈ (List.range' 0 (stop answer r)).map answer ↔ ∃ i, 2 * i < r ∧ answer i = .failed := by
  have hfirst : ∀ i, answer i = .failed → ∃ j ≤ i, answer j = .failed ∧ okCount answer j = j := by
    intro i hi
    have hex : ∃ j, answer j = .failed := ⟨i, hi⟩
    refine ⟨Nat.find hex, Nat.find_min' hex hi, Nat.find_spec hex, okCount_of_forall answer fun k hk => ?_⟩
    have hne := Nat.find_min hex hk
    cases h : answer k with
    | ok => rfl
    | unauthorized => exact absurd h (hauth k)
    | failed => exact absurd h hne
  simp only [List.mem_map, List.mem_range'_1, Nat.zero_le, true_and, Nat.zero_add]
  constructor
  · rintro ⟨i, hi, hfailed⟩
    obtain ⟨j, hj, hfailed, hcount⟩ := hfirst i hfailed
    have hlt := lt_of_lt_stop (Nat.lt_of_le_of_lt hj hi)
    exact ⟨j, by omega, hfailed⟩
  · rintro ⟨i, hi, hfailed⟩
    obtain ⟨j, hj, hfailed, hcount⟩ := hfirst i hfailed
    refine ⟨j, Nat.lt_of_not_le fun hle => ?_, hfailed⟩
    have hstop := le_stop answer r
    have hall : okCount answer (stop answer r) ≤ stop answer r := by
      unfold okCount
      exact (List.countP_le_length).trans_eq List.length_range
    omega

/-- Nothing is missing after a domain only if it is tried for a single instance. -/
theorem missing_eq_zero_iff {r : Nat} (hr : 0 < r) : missing answer r = 0 ↔ r = 1 ∧ answer 0 = .ok := by
  have hstop : stop answer r ≠ 0 := Nat.pos_iff_ne_zero.mp (stop_pos answer hr)
  obtain ⟨k, hk⟩ : ∃ k, stop answer r = k + 1 := Nat.exists_eq_succ_of_ne_zero hstop
  have hlt := lt_of_lt_stop (by omega : k < stop answer r)
  have hsucc := okCount_succ answer k
  have hzero : okCount answer 0 = 0 := rfl
  have hle := le_stop answer r
  unfold missing
  rw [hk] at hle ⊢
  constructor
  · intro h0
    have hok : answer k = .ok := by
      by_contra hne
      rw [if_neg hne] at hsucc
      omega
    rw [if_pos hok] at hsucc
    obtain rfl : k = 0 := by omega
    exact ⟨by omega, hok⟩
  · rintro ⟨rfl, hok⟩
    obtain rfl : k = 0 := by omega
    rw [if_pos hok] at hsucc
    omega

end

/-! ## The domains -/

/-- The domains that are tried if `r` instances are missing, each with how many are missing then. -/
def entries : List Domain → Nat → List (Domain × Nat)
  | [], _ => []
  | d :: ds, r => if !d.named ∨ r = 0 then entries ds r else (d, r) :: entries ds (missing d.answer r)

/-- How many instances are missing after all domains. -/
def left : List Domain → Nat → Nat
  | [], r => r
  | d :: ds, r => if !d.named ∨ r = 0 then left ds r else left ds (missing d.answer r)

/-- Some domain is tried for a single instance and its first launch succeeds, or in each that is tried for `r` one of
the first `⌈r / 2⌉` launches fails. -/
def Exhaustive (ads : List Domain) (n : Nat) : Prop :=
  (∃ e ∈ entries ads n, e.2 = 1 ∧ e.1.answer 0 = .ok) ∨
    ∀ e ∈ entries ads n, ∃ i, 2 * i < e.2 ∧ e.1.answer i = .failed

/-- The credentials hold. -/
def Authorized (ads : List Domain) : Prop := ∀ d ∈ ads, ∀ i, d.answer i ≠ .unauthorized

theorem left_le (ads : List Domain) : ∀ r, left ads r ≤ r := by
  induction ads with
  | nil => exact Nat.le_refl
  | cons d ds ih =>
    intro r
    unfold left
    split
    · exact ih r
    · exact (ih _).trans (Nat.sub_le _ _)

theorem left_eq_zero_iff (ads : List Domain) : ∀ {r : Nat}, 0 < r →
    (left ads r = 0 ↔ ∃ e ∈ entries ads r, e.2 = 1 ∧ e.1.answer 0 = .ok) := by
  induction ads with
  | nil =>
    intro r hr
    exact iff_of_false (Nat.pos_iff_ne_zero.mp hr) fun ⟨e, he, _⟩ => absurd he List.not_mem_nil
  | cons d ds ih =>
    intro r hr
    unfold left entries
    split
    · exact ih hr
    · rw [List.exists_mem_cons_iff, ← missing_eq_zero_iff hr]
      obtain h0 | hpos := Nat.eq_zero_or_pos (missing d.answer r)
      · exact iff_of_true (Nat.le_zero.mp (h0 ▸ left_le ds _)) (.inl h0)
      · rw [ih hpos]
        exact (or_iff_right (Nat.pos_iff_ne_zero.mp hpos)).symm

/-- What the loops count. -/
theorem launches_eq {ads : List Domain} (hauth : Authorized ads) : ∀ {r : Nat} {t : Tally}, t.remaining = r →
    (launches ads t).1.remaining = left ads r ∧ (launches ads t).1.success = t.success + r - left ads r ∧
      (launches ads t).1.authFailure = t.authFailure := by
  induction ads with
  | nil => intro r t ht; exact ⟨ht, by simp [launches, left], rfl⟩
  | cons d ds ih =>
    intro r t ht
    have hds : Authorized ds := fun d hd => hauth d (List.mem_cons_of_mem _ hd)
    unfold launches left
    by_cases hskip : !d.named ∨ r = 0
    · rw [if_pos hskip, if_pos (hskip.imp_right fun h0 => by omega)]
      exact ih hds ht
    · rw [if_neg hskip, if_neg fun h => hskip (h.imp_right fun hle => by omega)]
      obtain ⟨u, hu, hsuccess, hremaining, ha⟩ := attempts_eq (hauth d List.mem_cons_self) r (stop d.answer r)
        (Nat.zero_add _) (ht.trans (Int.sub_zero _).symm)
      have hle := okCount_stop_le d.answer r
      have hmissing : u.remaining = missing d.answer r := by
        rw [hremaining, missing, Int.natCast_sub hle]
      obtain ⟨hm, hs, ha'⟩ := ih hds hmissing
      dsimp only
      rw [hu]
      refine ⟨hm, hs.trans ?_, ha'.trans ha⟩
      have hzero : okCount d.answer 0 = 0 := rfl
      rw [hsuccess, hzero, missing, Int.natCast_sub hle]
      omega

/-- With instances missing in the end, every domain with a name was tried. -/
theorem tried_iff {ads : List Domain} (hauth : Authorized ads) : ∀ {r : Nat} {t : Tally}, t.remaining = r →
    0 < left ads r → ((∀ p ∈ ads.zip (launches ads t).2, p.1.named = true → Launch.failed ∈ p.2) ↔
      ∀ e ∈ entries ads r, ∃ i, 2 * i < e.2 ∧ e.1.answer i = .failed) := by
  induction ads with
  | nil => exact fun _ _ => iff_of_true (fun p hp => absurd hp List.not_mem_nil) fun e he => absurd he List.not_mem_nil
  | cons d ds ih =>
    intro r t ht hleft
    have hds : Authorized ds := fun d hd => hauth d (List.mem_cons_of_mem _ hd)
    have hr : 0 < r := Nat.lt_of_lt_of_le hleft (left_le _ r)
    unfold left at hleft
    unfold launches entries
    by_cases hskip : !d.named ∨ r = 0
    · rw [if_pos hskip] at hleft ⊢
      rw [if_pos (hskip.imp_right fun h0 => by omega), List.zip_cons_cons, List.forall_mem_cons, ih hds ht hleft]
      have hnamed : d.named = false := by simpa [Nat.pos_iff_ne_zero.mp hr] using hskip
      exact and_iff_right fun hn => by rw [hnamed] at hn; cases hn
    · rw [if_neg hskip] at hleft ⊢
      rw [if_neg fun h => hskip (h.imp_right fun hle => by omega)]
      have hnamed : d.named = true := by simpa using fun hn => hskip (.inl hn)
      obtain ⟨u, hu, -, hremaining, -⟩ := attempts_eq (hauth d List.mem_cons_self) r (stop d.answer r)
        (Nat.zero_add _) (ht.trans (Int.sub_zero _).symm)
      have hmissing : u.remaining = missing d.answer r := by
        rw [hremaining, missing, Int.natCast_sub (okCount_stop_le d.answer r)]
      dsimp only
      rw [hu, List.zip_cons_cons, List.forall_mem_cons, List.forall_mem_cons, ih hds hmissing hleft,
        ← failed_mem_iff (hauth d List.mem_cons_self) r]
      exact and_congr_left' ⟨fun h => h hnamed, fun h _ => h⟩

/-- If every launch succeeds, each domain leaves half of what is missing. -/
theorem left_of_ok {ads : List Domain} (hnamed : ∀ d ∈ ads, d.named = true) (hok : ∀ d ∈ ads, ∀ i, d.answer i = .ok) :
    ∀ r, left ads r = r / 2 ^ ads.length := by
  induction ads with
  | nil => intro r; rw [List.length_nil, Nat.pow_zero, Nat.div_one]; rfl
  | cons d ds ih =>
    intro r
    have ih := ih (fun d hd => hnamed d (List.mem_cons_of_mem _ hd)) fun d hd => hok d (List.mem_cons_of_mem _ hd)
    have hcount : ∀ k, okCount d.answer k = k := fun k =>
      okCount_of_forall d.answer fun i _ => hok d List.mem_cons_self i
    unfold left
    split
    · next hskip =>
      have h0 : r = 0 := by simpa [hnamed d List.mem_cons_self] using hskip
      rw [ih, h0, Nat.zero_div, Nat.zero_div]
    · next hskip =>
      have hr : 0 < r := Nat.pos_iff_ne_zero.mpr fun h0 => hskip (.inr h0)
      have hhalf : missing d.answer r = r / 2 := by
        have hge := le_stop d.answer r
        have hlt := lt_of_lt_stop (Nat.sub_lt (stop_pos d.answer hr) Nat.one_pos)
        have hpos := stop_pos d.answer hr
        rw [hcount] at hge hlt
        rw [missing, hcount]
        omega
      rw [ih, hhalf, Nat.div_div_eq_div_mul, List.length_cons, Nat.pow_succ, Nat.mul_comm]

/-! ## What a run meets -/

/-- The launches and the stored count add up to the number asked for, the row is deleted just when all were launched,
with instances missing a launch failed in every domain, and without failures all are launched. -/
structure Meets (rows : CreateTasks) (id : Int) (task : CreateTask) (ads : List Domain) : Prop where
  accounted : ∀ row, (runCreateTask rows id task ads).get id = some row →
    (loops task ads).1.success + row.createNumbers = task.createNumbers
  deleted : (runCreateTask rows id task ads).get id = none ↔ (loops task ads).1.success = task.createNumbers
  tried : (loops task ads).1.success < task.createNumbers →
    ∀ p ∈ ads.zip (loops task ads).2, p.1.named = true → Launch.failed ∈ p.2
  all : (∀ d ∈ ads, ∀ i, d.answer i = .ok) → (∃ d ∈ ads, d.named = true) →
    (loops task ads).1.success = task.createNumbers

theorem get_runCreateTask (rows : CreateTasks) (id : Int) (task : CreateTask) {ads : List Domain}
    (hauth : (loops task ads).1.authFailure = false) :
    (runCreateTask rows id task ads).get id = if (loops task ads).1.remaining ≤ 0 then none
      else (rows.get id).map fun row => { row with createNumbers := (loops task ads).1.remaining } := by
  unfold runCreateTask
  dsimp only
  rw [hauth, if_neg Bool.false_ne_true]
  split
  · exact KeyTable.get_erase_self rows id
  · exact KeyTable.get_update_self rows id _

/-- The answers of a domain are among those that it would give. -/
theorem launches_answers (ads : List Domain) (t : Tally) :
    ∀ p ∈ ads.zip (launches ads t).2, ∀ l ∈ p.2, ∃ i, p.1.answer i = l := by
  have hattempts : ∀ (answer : Nat → Launch) i t, ∀ l ∈ (attempts answer i t).2, ∃ j, answer j = l := by
    intro answer i t
    fun_induction attempts answer i t with
    | case1 i t _ hok _ ih => exact List.forall_mem_cons.mpr ⟨⟨i, hok⟩, ih⟩
    | case2 i t _ hbad => exact List.forall_mem_cons.mpr ⟨⟨i, hbad⟩, fun _ h => absurd h List.not_mem_nil⟩
    | case3 i t _ hfailed _ ih => exact List.forall_mem_cons.mpr ⟨⟨i, hfailed⟩, ih⟩
    | case4 => exact fun _ h => absurd h List.not_mem_nil
  induction ads generalizing t with
  | nil => exact fun p hp => absurd hp List.not_mem_nil
  | cons d ds ih =>
    unfold launches
    split
    · exact List.forall_mem_cons.mpr ⟨fun _ h => absurd h List.not_mem_nil, ih t⟩
    · exact List.forall_mem_cons.mpr ⟨hattempts d.answer 0 t, ih _⟩

theorem length_launches (ads : List Domain) (t : Tally) : (launches ads t).2.length = ads.length := by
  induction ads generalizing t with
  | nil => rfl
  | cons d ds ih =>
    unfold launches
    split
    · exact congrArg Nat.succ (ih t)
    · exact congrArg Nat.succ (ih _)

section
variable {rows : CreateTasks} {id : Int} {task : CreateTask} {ads : List Domain} {n : Nat}

/-- What the loops of a run count. -/
theorem loops_eq (hauth : Authorized ads) (hn : task.createNumbers = n) :
    (loops task ads).1.remaining = left ads n ∧ (loops task ads).1.success = n - left ads n ∧
      (loops task ads).1.authFailure = false := by
  obtain ⟨hremaining, hsuccess, ha⟩ := launches_eq hauth (t := { remaining := task.createNumbers }) hn
  exact ⟨hremaining, hsuccess.trans (by simp), ha⟩

theorem accounted (hauth : Authorized ads) (hn : task.createNumbers = n) (row : CreateTask)
    (hrow : (runCreateTask rows id task ads).get id = some row) :
    (loops task ads).1.success + row.createNumbers = task.createNumbers := by
  obtain ⟨hremaining, hsuccess, ha⟩ := loops_eq hauth hn
  rw [get_runCreateTask rows id task ha] at hrow
  split at hrow
  · cases hrow
  · obtain ⟨old, -, rfl⟩ := Option.map_eq_some_iff.mp hrow
    dsimp only
    rw [hsuccess, hremaining, hn]
    omega

theorem deleted_iff (hauth : Authorized ads) (hn : task.createNumbers = n) (hrow : (rows.get id).isSome) :
    (runCreateTask rows id task ads).get id = none ↔ (loops task ads).1.success = task.createNumbers := by
  obtain ⟨hremaining, hsuccess, ha⟩ := loops_eq hauth hn
  have hle := left_le ads n
  rw [get_runCreateTask rows id task ha, hsuccess, hremaining, hn]
  split
  · exact iff_of_true rfl (by omega)
  · refine iff_of_false (fun h => ?_) (by omega)
    rw [Option.map_eq_none_iff] at h
    rw [h] at hrow
    cases hrow

/-- If every launch succeeds, a domain that has a name cannot have failed. -/
theorem success_of_ok (h : (loops task ads).1.success < task.createNumbers →
    ∀ p ∈ ads.zip (loops task ads).2, p.1.named = true → Launch.failed ∈ p.2)
    (hle : (loops task ads).1.success ≤ task.createNumbers) (hok : ∀ d ∈ ads, ∀ i, d.answer i = .ok)
    (hnamed : ∃ d ∈ ads, d.named = true) : (loops task ads).1.success = task.createNumbers := by
  by_contra hne
  obtain ⟨d, hd, hnamed⟩ := hnamed
  obtain ⟨k, hk, rfl⟩ := List.getElem_of_mem hd
  have hlen : k < (ads.zip (loops task ads).2).length := by
    rw [List.length_zip, loops, length_launches, Nat.min_self]
    exact hk
  have hp := List.getElem_mem hlen
  have hfst : ((ads.zip (loops task ads).2)[k]).1 = ads[k] := by rw [List.getElem_zip]
  have hfailed := h (by omega) _ hp (by rw [hfst]; exact hnamed)
  obtain ⟨i, hi⟩ := launches_answers ads _ _ hp _ hfailed
  rw [hfst, hok _ hd] at hi
  cases hi

end

/-- A run meets what is asked of it if and only if the pattern of its launches is exhaustive. If all of them succeed it
launches everything if and only if there are enough domains to halve the number down to nothing. -/
theorem meets_iff_exhaustive {rows : CreateTasks} {id : Int} {task : CreateTask} {ads : List Domain}
    (hn : 1 ≤ task.createNumbers) (hauth : Authorized ads) (hrow : (rows.get id).isSome) :
    (Meets rows id task ads ↔ Exhaustive ads task.createNumbers.toNat) ∧
      ((∀ d ∈ ads, d.named = true ∧ ∀ i, d.answer i = .ok) →
        ((loops task ads).1.success = task.createNumbers ↔ task.createNumbers < 2 ^ ads.length)) := by
  obtain ⟨n, hn'⟩ := Int.eq_ofNat_of_zero_le (by omega : 0 ≤ task.createNumbers)
  have hpos : 0 < n := by omega
  obtain ⟨hremaining, hsuccess, -⟩ := loops_eq hauth hn'
  have hle := left_le ads n
  have hzero := left_eq_zero_iff ads hpos
  have htoNat : task.createNumbers.toNat = n := by omega
  have htried : 0 < left ads n → ((∀ p ∈ ads.zip (loops task ads).2, p.1.named = true → Launch.failed ∈ p.2) ↔
      ∀ e ∈ entries ads n, ∃ i, 2 * i < e.2 ∧ e.1.answer i = .failed) := tried_iff hauth hn'
  rw [htoNat]
  refine ⟨⟨fun h => ?_, fun h => ?_⟩, fun hok => ?_⟩
  · obtain h0 | hleft := Nat.eq_zero_or_pos (left ads n)
    · exact .inl (hzero.mp h0)
    · exact .inr ((htried hleft).mp (h.tried (by omega)))
  · have hall : (loops task ads).1.success < task.createNumbers →
        ∀ p ∈ ads.zip (loops task ads).2, p.1.named = true → Launch.failed ∈ p.2 := by
      intro hlt
      have hleft : 0 < left ads n := by omega
      obtain hex | htry := h
      · exact absurd (hzero.mpr hex) (Nat.pos_iff_ne_zero.mp hleft)
      · exact (htried hleft).mpr htry
    exact ⟨accounted hauth hn', deleted_iff hauth hn' hrow, hall, success_of_ok hall (by omega)⟩
  · rw [hsuccess, hn', left_of_ok (fun d hd => (hok d hd).1) (fun d hd => (hok d hd).2)]
    have hdiv := Nat.div_eq_zero_iff_lt (x := n) (Nat.two_pow_pos ads.length)
    have hcast : (n : Int) < 2 ^ ads.length ↔ n < 2 ^ ads.length := by exact_mod_cast Iff.rfl
    rw [hcast, ← hdiv]
    omega

def exampleTask : CreateTask := { tenantID := 1, intervalSeconds := 60, createNumbers := 2 }

/-- Every launch succeeds. -/
def exampleAds (k : Nat) : List Domain := List.replicate k { answer := fun _ => .ok }

theorem exampleAds_ok {k : Nat} : ∀ d ∈ exampleAds k, d.named = true ∧ ∀ i, d.answer i = .ok := by
  intro d hd
  obtain rfl := List.eq_of_mem_replicate hd
  exact ⟨rfl, fun _ => rfl⟩

theorem exampleAds_authorized {k : Nat} : Authorized (exampleAds k) := fun d hd i => by
  rw [(exampleAds_ok d hd).2 i]
  exact Launch.noConfusion

theorem meets_iff_exhaustive_two :
    (Meets (KeyTable.empty.insert exampleTask) 1 exampleTask (exampleAds 2) ↔ Exhaustive (exampleAds 2) 2) ∧
      (loops exampleTask (exampleAds 2)).1.success = 2 := by
  have hn : 1 ≤ exampleTask.createNumbers := by decide
  have hauth : Authorized (exampleAds 2) := exampleAds_authorized
  have hrow : ((KeyTable.empty.insert exampleTask).get 1).isSome := rfl
  have h := meets_iff_exhaustive hn hauth hrow
  exact ⟨h.1, (h.2 exampleAds_ok).mpr (by decide)⟩

/-- With one domain, a single instance is launched where two are asked for and no launch fails. -/
theorem one_domain_launches_one : (loops exampleTask (exampleAds 1)).1.success = 1 ∧
    ¬Meets (KeyTable.empty.insert exampleTask) 1 exampleTask (exampleAds 1) := by
  have hauth : Authorized (exampleAds 1) := exampleAds_authorized
  have hn : exampleTask.createNumbers = (2 : Nat) := rfl
  obtain ⟨-, hsuccess, -⟩ := loops_eq hauth hn
  rw [left_of_ok (fun d hd => (exampleAds_ok d hd).1) (fun d hd => (exampleAds_ok d hd).2)] at hsuccess
  refine ⟨hsuccess, fun h => ?_⟩
  have hall := h.all (fun d hd => (exampleAds_ok d hd).2) ⟨_, List.mem_cons_self, rfl⟩
  rw [hsuccess] at hall
  exact absurd hall (by decide)

end OciHelper.Schedule.Launches
