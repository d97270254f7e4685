import OciHelper.Lib.Slices
import OciHelper.Telegram.Callbacks

/-!
# Callbacks that index out of range

* `Stored` : what the bodies of the callbacks list; a byte is the character with its number;
* `tgSendInstanceList`, `tgSendTaskList`, ... : the lists and their keyboards, `none` if an index is out of range;
* `handle` : the switch and the list of the case that it selects;
* `Arm.reads` : how many parts a case reads; `Short` : the callbacks that have fewer;
* `FarBack` : the pages that start before the list; `handle_isSome_iff` : nothing else is out of range.

The bodies that build no list are left out.
-/

namespace OciHelper.Telegram.Bounds
open Slices Text

variable {α : Type}

/-! ## Lists and keyboards -/

/-- What is read from a table; a row takes more than eight bytes of memory. -/
structure Rows (α : Type) where
  rows : List α
  length_lt : rows.length < 2 ^ 60

namespace Rows

def slice (r : Rows α) : Slice α := ⟨r.rows, Nat.lt_trans r.length_lt (by decide)⟩

def empty : Rows α := ⟨[], Nat.two_pow_pos 60⟩

end Rows

structure Instance where
  id : InstanceID
  name : Slice Char

structure Task where
  id : Int64
  type : List Char
  status : List Char

structure Tenant where
  id : Int64
  name : Slice Char

structure Vcn where
  displayName : Option (Slice Char)
  id : Option {p : Part // p.1.length < 2 ^ 63}

/-- What the reads of one callback return; the instances and the tasks are `none` if their read fails. -/
structure Stored where
  instances : Option (Rows Instance) := some .empty
  tasks : Option (Rows Task) := some .empty
  tenants : Rows Tenant := .empty
  vcns : Rows Vcn := .empty
  fingerprints : Rows (Slice Char) := .empty
  logLines : Rows (Slice Char) := .empty

/-- A row of a keyboard: the text and the button. -/
abbrev Row := List Char × Button

/-- The lines of the text, the rows for what is listed, and the buttons below them. -/
structure Reply where
  lines : List (List Char) := []
  rows : List Row := []
  below : List Button := []

def Reply.buttons (r : Reply) : List Button := r.rows.map Prod.snd ++ r.below

/-- The first `n` bytes and a mark, if there are more than `n`. -/
def cutLabel (n : Int64) (mark : List Char) (s : Slice Char) : Option (List Char) :=
  if s.len > n then (slice? s.1 0 n).map (· ++ mark) else some s.1

def ellipsis : List Char := ['\xe2', '\x80', '\xa6']

def dots : List Char := ['.', '.', '.']

def instanceRow (ws : List Word) (arm : Arm) (inst : Instance) : Option Row :=
  (cutLabel 30 ellipsis inst.name).map fun label => (label, instanceButton ws arm inst.id)

def taskRow (t : Task) : Option Row :=
  some ('#' :: decimal t.id.toInt ++ ' ' :: t.type ++ ' ' :: '[' :: t.status ++ [']'],
    ⟨words [.tasks, .detail] ++ [.num t.id], .taskDetail, [.num t.id]⟩)

/-- The loop over eight indices. -/
def window (items : Slice α) (start : Int64) : Option (List α) := loop? items.1 start (atMost items (start + 8))

/-- The keyboard of a page. -/
def keyboard (row : α → Option Row) (w : Word) (arm : Arm) (items : Slice α) (page totalPages : Int64) :
    Option Reply := do
  let shown ← window items (page * 8)
  let rows ← shown.mapM row
  return { rows, below := navRow ⟨page, totalPages⟩ (pageButton w arm) }

def tgInstanceKeyboard (items : Slice Instance) (page totalPages : Int64) : Option Reply :=
  keyboard (instanceRow [.instances, .detail] .instanceDetail) .instances .instances items page totalPages

def tgTaskKeyboard (items : Slice Task) (page totalPages : Int64) : Option Reply :=
  keyboard taskRow .tasks .tasks items page totalPages

def totalPages (items : Slice α) : Int64 := (items.len + 8 - 1) / 8

/-- A page behind the last one is the last one. -/
def clampPage (items : Slice α) (page : Int64) : Int64 := if page ≥ totalPages items then totalPages items - 1 else page

/-- The list with its keyboard, the main menu for an empty one. -/
def sendList (keyboard : Slice α → Int64 → Int64 → Option Reply) (rows : Option (Rows α)) (page : Int64) :
    Option Reply :=
  match rows with
  | none => some {}
  | some items =>
    if items.slice.len = 0 then some { below := tgMainKeyboard }
    else keyboard items.slice (clampPage items.slice page) (totalPages items.slice)

def tgSendInstanceList (rows : Option (Rows Instance)) (page : Int64) : Option Reply :=
  sendList tgInstanceKeyboard rows page

def tgSendTaskList (rows : Option (Rows Task)) (page : Int64) : Option Reply := sendList tgTaskKeyboard rows page

def tgTrafficChooseInstance (instances : Rows Instance) : Option Reply :=
  if instances.slice.len = 0 then some { below := tgMainKeyboard }
  else do
    let shown ← window instances.slice 0
    let rows ← shown.mapM (instanceRow [.traffic, .query] .trafficQuery)
    return { rows, below := [mainButton] }

def tgCheckAlivePrompt (instances : Rows Instance) : Option Reply :=
  if instances.slice.len = 0 then some { below := tgMainKeyboard }
  else do
    let rows ← (instances.rows.take 12).mapM (instanceRow [.checkalive, .doCheck] .checkaliveDo)
    return { rows, below := [mainButton] }

/-- The body of the case `vnc`; a name is not cut. -/
def vncList (instances : Rows Instance) : Reply where
  rows := (instances.rows.take 10).map fun inst =>
    (if inst.name.1 = [] then inst.id.text else inst.name.1, instanceButton [.vnc, .openVnc] .vncOpen inst.id)
  below := [mainButton]

/-- The list is the same in both dialogues. -/
def tgDefenseTenantList (disable : Bool) (tenants : Rows Tenant) : Option Reply :=
  if tenants.slice.len = 0 then some {}
  else do
    let arm := if disable then .disableTenant else .defenseTenant
    let rows ← tenants.rows.mapM fun t => (cutLabel 30 ellipsis t.name).map fun label =>
      (label, (⟨words [.defense, .tenant] ++ [.num t.id], arm, [.num t.id]⟩ : Button))
    return { rows, below := [defenseBack] }

/-- A VCN without a name or without an id has no row. -/
def vcnRow (disable : Bool) (tenantID : Int64) (v : Vcn) : Option (Option Row) :=
  let name := v.displayName.getD (v.id.elim ⟨[], by decide⟩ fun id => ⟨id.1.1, id.2⟩)
  if name.1 = [] then some none
  else (cutLabel 30 ellipsis name).map fun label => v.id.map fun id =>
    (label, if disable then tenantButton [.defense, .disable, .vcn] .disableVcn tenantID id.1
      else tenantButton [.defense, .vcn] .defenseVcn tenantID id.1)

def tgDefenseVcnList (disable : Bool) (tenantID : Int64) (vcns : Rows Vcn) : Option Reply :=
  if vcns.slice.len = 0 then some {}
  else do
    let rows ← (vcns.rows.take 15).mapM (vcnRow disable tenantID)
    return { rows := rows.reduceOption, below := [defenseBack] }

def tgSSHKeysList (fingerprints : Rows (Slice Char)) : Option Reply := do
  let lines ← fingerprints.rows.mapM (cutLabel 16 dots)
  return { lines, below := Telegram.tgSSHKeysList }

def tgLogTail (logLines : Rows (Slice Char)) : Option Reply := do
  let lines ← logLines.rows.mapM (cutLabel 80 dots)
  return { lines, below := tgMainKeyboard }

/-! ## The router -/

/-- The list of a case. -/
def respond (s : Stored) : Arm → List Arg → Option Reply
  | .instances, [.num page] => tgSendInstanceList s.instances page
  | .tasks, [.num page] => tgSendTaskList s.tasks page
  | .traffic, _ => tgTrafficChooseInstance (s.instances.getD .empty)
  | .checkalive, _ => tgCheckAlivePrompt (s.instances.getD .empty)
  | .vnc, _ => some (vncList (s.instances.getD .empty))
  | .defenseEnable, _ => tgDefenseTenantList false s.tenants
  | .disable, _ => tgDefenseTenantList true s.tenants
  | .defenseTenant, [.num tenantID] => tgDefenseVcnList false tenantID s.vcns
  | .disableTenant, [.num tenantID] => tgDefenseVcnList true tenantID s.vcns
  | .sshkeys, _ => tgSSHKeysList s.fingerprints
  | .logs, _ => tgLogTail s.logLines
  | _, _ => some {}

/-- `none` if an index is out of range. -/
def handle (s : Stored) (data : List Char) : Option Reply :=
  match handleTGCallback data with
  | .selected arm args => respond s arm args
  | .ignored => some {}
  | .panicked => none

/-! ## Parts that are not there -/

/-- How many parts a case reads. -/
def Arm.reads : Arm → Nat
  | .createTenant | .taskDetail | .defenseTenant | .instanceDetail | .terminateConfirm | .vncOpen | .trafficQuery
  | .checkaliveDo | .blacklistRemove => 3
  | .disableTenant | .defenseVcn | .defenseConfirm | .volumeTerminate | .volumeUpdate | .aiModelSet => 4
  | .instanceAction | .disableVcn | .disableConfirm | .volumeTerminateDo => 5
  | .terminateDo => 6
  | _ => 0

def Length.least : Length → Nat
  | .any => 0
  | .exactly n | .atLeast n => n

theorem Length.least_le {len : Length} {n : Nat} (h : len.holds n) : Length.least len ≤ n := by
  cases len <;> simp_all [Length.least, Length.holds]

theorem tgInstID_eq_none_iff {ps : List Part} {idx : Nat} : tgInstID ps idx = none ↔ ps.length ≤ idx := by
  unfold tgInstID
  rw [← List.getElem?_eq_none_iff]
  split <;> simp_all

theorem numAndPart_eq_none_iff {ps : List Part} {idx : Nat} : numAndPart ps idx = none ↔ ps.length ≤ idx + 1 := by
  rw [← List.getElem?_eq_none_iff, numAndPart]
  cases h : ps[idx]? with
  | none =>
    have := List.getElem?_eq_none_iff.mp h
    exact iff_of_true rfl (List.getElem?_eq_none (by omega))
  | some p => cases h' : ps[idx + 1]? <;> simp

theorem idAndPart_eq_none_iff {ps : List Part} {i j : Nat} (h : i ≤ j) (f : List Char → Part → List Arg) :
    ((tgInstID ps i).bind fun id => ps[j]?.bind fun p => some (f id p)) = none ↔ ps.length ≤ j := by
  cases hid : tgInstID ps i with
  | none => exact iff_of_true rfl (Nat.le_trans (tgInstID_eq_none_iff.mp hid) h)
  | some id =>
    rw [← List.getElem?_eq_none_iff]
    cases ps[j]? <;> simp

theorem args_eq_none_iff {ps : List Part} {arm : Arm} : arm.args ps = none ↔ ps.length < Arm.reads arm := by
  rw [← Nat.not_le]
  cases arm
  case instanceAction => exact (idAndPart_eq_none_iff (by omega) _).trans (by simp [Arm.reads]; omega)
  case terminateDo => exact (idAndPart_eq_none_iff (by omega) _).trans (by simp [Arm.reads]; omega)
  all_goals simp [Arm.args, Arm.reads, numAndPart_eq_none_iff, tgInstID_eq_none_iff] <;> omega

/-- The two callbacks that pass their condition with a part less than the case reads. -/
def Short (ps : List Part) : Prop :=
  ps = words [.create, .tenant] ∨ ∃ p, ps = words [.defense, .confirm] ++ [p]

/-- All other conditions ask for as many parts as are read. -/
theorem reads_le_least {arm : Arm} (h₁ : arm ≠ .createTenant) (h₂ : arm ≠ .defenseConfirm) :
    Arm.reads arm ≤ Length.least arm.guard.len := by
  cases arm <;> first | decide | contradiction

theorem guard_words {ps : List Part} {arm : Arm} (h : select ps = some arm) :
    arm.guard.len.holds ps.length ∧
      ∀ i < arm.guard.subs.length + 1, ps[i]? = (arm.guard.action :: arm.guard.subs)[i]?.map Word.part := by
  have hholds : arm.guard.holds ps = true := by
    have hsome := List.find?_some h
    exact hsome
  simp only [Guard.holds, Bool.and_eq_true, decide_eq_true_eq, List.all_eq_true, List.mem_range] at hholds
  obtain ⟨⟨haction, hlen⟩, hsubs⟩ := hholds
  refine ⟨hlen, fun i hi => ?_⟩
  cases i with
  | zero => exact haction
  | succ i => exact hsubs i (by omega)

theorem short_of_select {ps : List Part} {arm : Arm} (h : select ps = some arm) (hargs : arm.args ps = none) :
    Short ps := by
  obtain ⟨hlen, hwords⟩ := guard_words h
  have hreads := args_eq_none_iff.mp hargs
  have hleast := Length.least_le hlen
  by_cases h₁ : arm = .createTenant
  · subst h₁
    have h2 : ps.length = 2 := Nat.le_antisymm (Nat.le_of_lt_succ hreads) hleast
    match ps, h2 with
    | [p, q], _ =>
      have hp := hwords 0 (by decide)
      have hq := hwords 1 (by decide)
      cases hp
      cases hq
      exact .inl rfl
  by_cases h₂ : arm = .defenseConfirm
  · subst h₂
    have h3 : ps.length = 3 := Nat.le_antisymm (Nat.le_of_lt_succ hreads) hleast
    match ps, h3 with
    | [p, q, r], _ =>
      have hp := hwords 0 (by decide)
      have hq := hwords 1 (by decide)
      cases hp
      cases hq
      exact .inr ⟨r, rfl⟩
  · have hle := reads_le_least h₁ h₂
    omega

theorem panicked_iff (data : List Char) : handleTGCallback data = .panicked ↔ Short (parts data) := by
  have hiff : handleTGCallback data = .panicked ↔
      ∃ arm, select (parts data) = some arm ∧ arm.args (parts data) = none := by
    unfold handleTGCallback
    cases hs : select (parts data) with
    | none => simp [hs]
    | some arm => cases ha : arm.args (parts data) <;> simp [hs, ha]
  rw [hiff]
  constructor
  · rintro ⟨arm, hs, ha⟩
    exact short_of_select hs ha
  · generalize parts data = ps
    rintro (rfl | ⟨p, rfl⟩)
    · exact ⟨.createTenant, by decide, rfl⟩
    · exact ⟨.defenseConfirm, (select_words_append _ [p]).trans rfl, rfl⟩

/-! ## Pages that start before the list -/

theorem window_isSome_iff (items : Slice α) {start : Int64} : (window items start).isSome ↔ 0 ≤ start.toInt := by
  have hlen := items.2
  have hstart := start.le_toInt
  have hstart' := start.toInt_lt
  have height : (8 : Int64).toInt = 8 := rfl
  have hstop := toInt_atMost items (start + 8)
  by_cases h : start.toInt < 0
  · have hadd : (start + 8).toInt = start.toInt + 8 := toInt_add (by omega) (by omega)
    have hnone : window items start = none := by
      rw [window, Option.eq_none_iff_forall_ne_some]
      intro ys hys
      have := ((loop?_eq_some_iff hlen (by omega) (by omega)).mp hys).1
      omega
    rw [hnone]
    exact iff_of_false Bool.false_ne_true (by omega)
  · refine iff_of_true ?_ (by omega)
    by_cases hlt : start.toInt < (atMost items (start + 8)).toInt
    · have hsome := (loop?_eq_some_iff hlen hlt (by omega)).mpr ⟨by omega, rfl⟩
      rw [window, hsome]
      rfl
    · rw [window, loop?_of_le (by omega)]
      rfl

theorem isSome_cutLabel {n : Int64} (h : 0 ≤ n) (mark : List Char) (s : Slice Char) : (cutLabel n mark s).isSome := by
  unfold cutLabel
  split
  · next hlt =>
    have hlt := Int64.lt_iff_toInt_lt.mp hlt
    rw [s.toInt_len] at hlt
    have h0 := nonneg_iff.mp h
    rw [Option.isSome_map]
    exact isSome_slice?_iff.mpr ⟨le_rfl, h0, by omega⟩
  · rfl

theorem isSome_mapM {β : Type} {f : α → Option β} (h : ∀ a, (f a).isSome) (l : List α) : (l.mapM f).isSome := by
  induction l with
  | nil => rfl
  | cons a l ih =>
    obtain ⟨b, hb⟩ := Option.isSome_iff_exists.mp (h a)
    obtain ⟨bs, hbs⟩ := Option.isSome_iff_exists.mp ih
    rw [List.mapM_cons, hb, hbs]
    rfl

theorem isSome_rows {β : Type} {f : α → Option β} (h : ∀ a, (f a).isSome) (l : List α) (reply : List β → Reply) :
    ((l.mapM f).bind fun rows => some (reply rows)).isSome := by
  obtain ⟨rows, hrows⟩ := Option.isSome_iff_exists.mp (isSome_mapM h l)
  rw [hrows]
  rfl

theorem isSome_instanceRow (ws : List Word) (arm : Arm) (inst : Instance) : (instanceRow ws arm inst).isSome := by
  rw [instanceRow, Option.isSome_map]
  exact isSome_cutLabel (by decide) ellipsis inst.name

theorem isSome_vcnRow (disable : Bool) (tenantID : Int64) (v : Vcn) : (vcnRow disable tenantID v).isSome := by
  unfold vcnRow
  dsimp only
  split
  · rfl
  · rw [Option.isSome_map]
    exact isSome_cutLabel (by decide) ellipsis _

/-- A loop over a window, whose rows are built without a panic. -/
theorem isSome_window_rows {row : α → Option Row} (h : ∀ a, (row a).isSome) (items : Slice α) (start : Int64)
    (reply : List Row → Reply) :
    ((window items start).bind fun shown => (shown.mapM row).bind fun rows => some (reply rows)).isSome ↔
      0 ≤ start.toInt := by
  rw [← window_isSome_iff items]
  cases window items start with
  | none => rfl
  | some shown => exact iff_of_true (isSome_rows h shown reply) rfl

theorem toInt_totalPages (items : Rows α) :
    (totalPages items.slice).toInt = (items.rows.length + 7) / 8 := by
  have hlen := items.length_lt
  have hval : items.slice.len.toInt = items.rows.length := items.slice.toInt_len
  have height : (8 : Int64).toInt = 8 := rfl
  have hone : (1 : Int64).toInt = 1 := rfl
  have hadd : (items.slice.len + 8).toInt = items.rows.length + 8 := by
    rw [toInt_add (by omega) (by omega), hval, height]
  have hsub : (items.slice.len + 8 - 1).toInt = items.rows.length + 7 := by
    rw [toInt_sub (by omega) (by omega), hadd, hone]
    omega
  rw [totalPages, Int64.toInt_div_of_ne_right _ _ (by decide), hsub, height]
  exact Int.tdiv_eq_ediv_of_nonneg (by omega)

theorem clampPage_eq {items : Rows α} (page : Int64) (hne : items.rows ≠ []) :
    (clampPage items.slice page).toInt = min page.toInt ((items.rows.length + 7) / 8 - 1) := by
  have hpos := List.length_pos_iff.mpr hne
  have hlen := items.length_lt
  have htotal := toInt_totalPages items
  have hone : (1 : Int64).toInt = 1 := rfl
  unfold clampPage
  split
  · next h =>
    have hle := Int64.le_iff_toInt_le.mp h
    rw [toInt_sub (by omega) (by omega)]
    omega
  · next h =>
    have hlt := Int64.lt_iff_toInt_lt.mp (Int64.not_le.mp h)
    omega

theorem toInt_start {items : Rows α} {page : Int64} (hne : items.rows ≠ []) (h0 : 0 ≤ page.toInt) :
    (clampPage items.slice page * 8).toInt = (clampPage items.slice page).toInt * 8 := by
  have hpos := List.length_pos_iff.mpr hne
  have hlen := items.length_lt
  have hclamp := clampPage_eq page hne
  have height : (8 : Int64).toInt = 8 := rfl
  rw [← height]
  exact toInt_mul (by rw [height]; omega) (by rw [height]; omega)

/-- A negative page is in range where its product with eight wraps around to a number that is not negative. -/
theorem clampPage_start_iff {items : Rows α} {page : Int64} (hne : items.rows ≠ []) :
    0 ≤ (clampPage items.slice page * 8).toInt ↔ 0 ≤ page ∨ 0 ≤ page * 8 := by
  have hpos := List.length_pos_iff.mpr hne
  by_cases h0 : 0 ≤ page.toInt
  · have hclamp := clampPage_eq page hne
    rw [toInt_start hne h0]
    exact iff_of_true (by omega) (.inl (nonneg_iff.mpr h0))
  · have htotal := toInt_totalPages items
    have hlt : ¬ page ≥ totalPages items.slice := fun h => by
      have := Int64.le_iff_toInt_le.mp h
      omega
    rw [clampPage, if_neg hlt, ← nonneg_iff]
    exact ⟨.inr, fun h => h.resolve_left fun hpage => h0 (nonneg_iff.mp hpage)⟩

/-- Nothing is listed, or the page does not start before the list. -/
def InRange (rows : Option (Rows α)) (page : Int64) : Prop :=
  ∀ items, rows = some items → items.rows ≠ [] → 0 ≤ page ∨ 0 ≤ page * 8

theorem len_eq_zero_iff {items : Rows α} : items.slice.len = 0 ↔ items.rows = [] := by
  rw [← Int64.toInt_inj, items.slice.toInt_len, ← List.length_eq_zero_iff]
  exact Int.natCast_eq_zero

theorem isSome_keyboard_iff {row : α → Option Row} (hrow : ∀ a, (row a).isSome) (w : Word) (arm : Arm)
    (items : Slice α) (page totalPages : Int64) :
    (keyboard row w arm items page totalPages).isSome ↔ 0 ≤ (page * 8).toInt := by
  unfold keyboard
  exact isSome_window_rows hrow items _ _

theorem sendList_isSome_iff {row : α → Option Row} (hrow : ∀ a, (row a).isSome) (w : Word) (arm : Arm)
    (rows : Option (Rows α)) (page : Int64) :
    (sendList (keyboard row w arm) rows page).isSome ↔ InRange rows page := by
  match rows with
  | none => exact iff_of_true rfl fun items h => nomatch h
  | some items =>
    by_cases hne : items.rows = []
    · rw [sendList, if_pos (len_eq_zero_iff.mpr hne)]
      refine iff_of_true rfl ?_
      rintro _ ⟨⟩ h
      exact absurd hne h
    · rw [sendList, if_neg (mt len_eq_zero_iff.mp hne)]
      refine (isSome_keyboard_iff hrow ..).trans ((clampPage_start_iff hne).trans ⟨?_, fun h => h items rfl hne⟩)
      rintro h _ ⟨⟩ -
      exact h

/-! ## The router -/

/-- The number of the page, the first one if there is none. -/
def pageOf (ps : List Part) : Int64 := ps[1]?.elim 0 number

theorem isSome_tgTrafficChooseInstance (instances : Rows Instance) : (tgTrafficChooseInstance instances).isSome := by
  unfold tgTrafficChooseInstance
  split
  · rfl
  · exact (isSome_window_rows (isSome_instanceRow _ _) instances.slice 0 _).mpr le_rfl

theorem isSome_tgCheckAlivePrompt (instances : Rows Instance) : (tgCheckAlivePrompt instances).isSome := by
  unfold tgCheckAlivePrompt
  split
  · rfl
  · exact isSome_rows (isSome_instanceRow _ _) _ _

theorem isSome_tgDefenseTenantList (disable : Bool) (tenants : Rows Tenant) :
    (tgDefenseTenantList disable tenants).isSome := by
  unfold tgDefenseTenantList
  split
  · rfl
  · refine isSome_rows (fun t => ?_) _ _
    rw [Option.isSome_map]
    exact isSome_cutLabel (by decide) ellipsis t.name

theorem isSome_tgDefenseVcnList (disable : Bool) (tenantID : Int64) (vcns : Rows Vcn) :
    (tgDefenseVcnList disable tenantID vcns).isSome := by
  unfold tgDefenseVcnList
  split
  · rfl
  · exact isSome_rows (isSome_vcnRow disable tenantID) _ _

/-- The pages aside, every list is in range. -/
theorem respond_isSome (s : Stored) {arm : Arm} (args : List Arg) (hi : arm ≠ .instances) (ht : arm ≠ .tasks) :
    (respond s arm args).isSome := by
  unfold respond
  split
  · exact absurd rfl hi
  · exact absurd rfl ht
  · exact isSome_tgTrafficChooseInstance _
  · exact isSome_tgCheckAlivePrompt _
  · rfl
  · exact isSome_tgDefenseTenantList _ _
  · exact isSome_tgDefenseTenantList _ _
  · exact isSome_tgDefenseVcnList _ _ _
  · exact isSome_tgDefenseVcnList _ _ _
  · exact isSome_rows (isSome_cutLabel (by decide) dots) _ _
  · exact isSome_rows (isSome_cutLabel (by decide) dots) _ _
  · rfl

theorem respond_isSome_iff (s : Stored) {ps : List Part} {arm : Arm} {args : List Arg} (h : arm.args ps = some args) :
    (respond s arm args).isSome ↔
      (arm = .instances → InRange s.instances (pageOf ps)) ∧ (arm = .tasks → InRange s.tasks (pageOf ps)) := by
  by_cases hi : arm = .instances
  · subst hi
    cases h
    simp only [forall_const, reduceCtorEq, false_implies, and_true]
    exact sendList_isSome_iff (isSome_instanceRow _ _) _ _ s.instances (pageOf ps)
  by_cases ht : arm = .tasks
  · subst ht
    cases h
    simp only [forall_const, reduceCtorEq, false_implies, true_and]
    exact sendList_isSome_iff (fun _ => rfl) _ _ s.tasks (pageOf ps)
  · exact iff_of_true (respond_isSome s args hi ht) ⟨fun h => absurd h hi, fun h => absurd h ht⟩

/-- A list that is not empty is asked for a negative page, and that page starts before the list. -/
def FarBack (s : Stored) (ps : List Part) : Prop :=
  (select ps = some .instances ∧ (∃ items, s.instances = some items ∧ items.rows ≠ []) ∨
    select ps = some .tasks ∧ ∃ items, s.tasks = some items ∧ items.rows ≠ []) ∧
  pageOf ps < 0 ∧ pageOf ps * 8 < 0

theorem not_inRange_iff {rows : Option (Rows α)} {page : Int64} :
    ¬ InRange rows page ↔ (∃ items, rows = some items ∧ items.rows ≠ []) ∧ page < 0 ∧ page * 8 < 0 := by
  unfold InRange
  push Not
  simp only [Int64.not_le]
  exact ⟨fun ⟨items, hrows, hne, hpage⟩ => ⟨⟨items, hrows, hne⟩, hpage⟩,
    fun ⟨⟨items, hrows, hne⟩, hpage⟩ => ⟨items, hrows, hne, hpage⟩⟩

/-- **A callback indexes nothing out of range unless it is one of the two short ones or its page is too far back.** -/
theorem handle_isSome_iff (s : Stored) (data : List Char) :
    (handle s data).isSome ↔ ¬ Short (parts data) ∧ ¬ FarBack s (parts data) := by
  rw [← panicked_iff, handle]
  split
  · next arm args h =>
    obtain ⟨hs, ha⟩ := handleTGCallback_eq_selected_iff.mp h
    rw [respond_isSome_iff s ha, h, FarBack, hs]
    simp only [reduceCtorEq, not_false_eq_true, true_and, Option.some.injEq]
    constructor
    · rintro ⟨hi, ht⟩ ⟨⟨he, hrows⟩ | ⟨he, hrows⟩, hpage⟩
      · exact not_inRange_iff.mpr ⟨hrows, hpage⟩ (hi he)
      · exact not_inRange_iff.mpr ⟨hrows, hpage⟩ (ht he)
    · refine fun hfar => ⟨fun he => ?_, fun he => ?_⟩
      · by_contra hnot
        obtain ⟨hrows, hpage⟩ := not_inRange_iff.mp hnot
        exact hfar ⟨.inl ⟨he, hrows⟩, hpage⟩
      · by_contra hnot
        obtain ⟨hrows, hpage⟩ := not_inRange_iff.mp hnot
        exact hfar ⟨.inr ⟨he, hrows⟩, hpage⟩
  · next h =>
    rw [h]
    refine iff_of_true rfl ⟨nofun, ?_⟩
    rintro ⟨⟨hs, -⟩ | ⟨hs, -⟩, -⟩
    all_goals
      unfold handleTGCallback at h
      simp [hs, Arm.args] at h
  · next h => exact iff_of_false Bool.false_ne_true fun hn => hn.1 h

/-- `create:tenant` has no third part. -/
theorem create_tenant_panics : ¬ ∀ (s : Stored) (data : List Char), (handle s data).isSome := by
  intro h
  have hsome := h {} ['c', 'r', 'e', 'a', 't', 'e', ':', 't', 'e', 'n', 'a', 'n', 't']
  exact absurd hsome (by decide)

/-! ## In range -/

/-- The page that is shown. -/
def paging (items : Rows α) (page : Int64) : Paging := ⟨clampPage items.slice page, totalPages items.slice⟩

theorem window_eq {items : Rows α} {start : Int64} (h : 0 ≤ start.toInt) :
    window items.slice start = some ((items.rows.drop start.toInt.toNat).take 8) := by
  have hlen := items.length_lt
  have hle : (atMost items.slice (start + 8)).toInt ≤ items.rows.length := by
    have hmin := toInt_atMost items.slice (start + 8)
    have hrows : items.slice.1.length = items.rows.length := rfl
    omega
  by_cases hn : start.toInt < items.rows.length
  · have height : (8 : Int64).toInt = 8 := rfl
    have hstop : (atMost items.slice (start + 8)).toInt = min (start.toInt + 8) items.rows.length := by
      rw [toInt_atMost, toInt_add (by omega) (by omega)]
      rfl
    have hlt : start.toInt < (atMost items.slice (start + 8)).toInt := by omega
    have hwindow := (loop?_eq_some_iff items.slice.2 hlt hle).mpr ⟨by omega, rfl⟩
    rw [window, hwindow, Option.some.injEq]
    refine List.take_eq_take_iff.mpr ?_
    rw [List.length_drop, show items.slice.1.length = items.rows.length from rfl]
    omega
  · -- the loop ends before it begins, also where its end wraps around
    rw [window, loop?_of_le (by omega), List.drop_eq_nil_of_le (by omega)]
    rfl

theorem buttons_of_mapM {row : α → Option Row} {button : α → Button} (h : ∀ a r, row a = some r → r.2 = button a)
    {l : List α} {rows : List Row} (hrows : l.mapM row = some rows) : rows.map Prod.snd = l.map button := by
  induction l generalizing rows with
  | nil =>
    cases hrows
    rfl
  | cons a l ih =>
    rw [List.mapM_cons] at hrows
    obtain ⟨r, hr, hrest⟩ := Option.bind_eq_some_iff.mp hrows
    obtain ⟨rs, hrs, heq⟩ := Option.bind_eq_some_iff.mp hrest
    cases heq
    rw [List.map_cons, List.map_cons, h a r hr, ih hrs]

/-- A page of a list that is not empty, if it is in range, has the buttons of its keyboard. -/
theorem sendList_buttons {row : α → Option Row} {button : α → Button} (h : ∀ a r, row a = some r → r.2 = button a)
    (hrow : ∀ a, (row a).isSome) {w : Word} {arm : Arm} {items : Rows α} {page : Int64} {reply : Reply}
    (hne : items.rows ≠ []) (hreply : sendList (keyboard row w arm) (some items) page = some reply) :
    reply.buttons = ((paging items page).rows items.rows).map button ++
      navRow (paging items page) (pageButton w arm) := by
  rw [sendList, if_neg (mt len_eq_zero_iff.mp hne)] at hreply
  have hstart := (isSome_keyboard_iff hrow w arm _ _ _).mp (Option.isSome_of_eq_some hreply)
  rw [keyboard, window_eq hstart] at hreply
  obtain ⟨shown, hshown, hreply⟩ := Option.bind_eq_some_iff.mp hreply
  obtain ⟨rows, hrows, heq⟩ := Option.bind_eq_some_iff.mp hreply
  cases hshown
  cases heq
  rw [Reply.buttons, buttons_of_mapM h hrows]
  rfl

theorem tgSendInstanceList_buttons {items : Rows Instance} {page : Int64} {reply : Reply} (hne : items.rows ≠ [])
    (h : tgSendInstanceList (some items) page = some reply) :
    reply.buttons = (Keyboard.instances (items.rows.map Instance.id) (paging items page)).buttons := by
  rw [sendList_buttons (fun a r hr => ?_) (isSome_instanceRow _ _) hne h, Keyboard.buttons,
    Telegram.tgInstanceKeyboard, Paging.rows_map, List.map_map]
  · rfl
  · obtain ⟨label, -, rfl⟩ := Option.map_eq_some_iff.mp hr
    rfl

theorem tgSendTaskList_buttons {items : Rows Task} {page : Int64} {reply : Reply} (hne : items.rows ≠ [])
    (h : tgSendTaskList (some items) page = some reply) :
    reply.buttons = (Keyboard.tasks (items.rows.map Task.id) (paging items page)).buttons := by
  rw [sendList_buttons (fun a r hr => ?_) (fun _ => rfl) hne h, Keyboard.buttons, Telegram.tgTaskKeyboard,
    Paging.rows_map, List.map_map]
  · rfl
  · exact congrArg Prod.snd (Option.some.inj hr).symm

end OciHelper.Telegram.Bounds
