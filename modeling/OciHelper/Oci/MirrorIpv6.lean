import OciHelper.Oci.AddRules

/-!
# Mirroring open rules to IPv6

* `ruleKey`, `mirrored` : what `mirrorToIPv6` adds to the rules of a direction;
* `mirrorToIPv6` : the lists of a subnet one after the other; the answers say which calls succeed;
* `Counterpart` : the IPv6 rule for a rule; `Mirrors` : every open rule has one, and nothing but counterparts is new;
* `Distinct` : no open rule hides behind another with the same key, and none is there twice;
* `mirrorToIPv6_iff` : when a successful call mirrors every open rule once.

Texts are lists of characters.
-/

namespace OciHelper.Oci
open Text

def anyIPv4 : List Char := "0.0.0.0/0".toList

def anyIPv6 : List Char := "::/0".toList

/-- The protocol, the address and the destination ports. -/
def ruleKey (r : SecurityRule) : List Char :=
  let range (pr : PortRange) : List Char := decimal pr.min ++ '-' :: decimal pr.max
  let port := match r.tcpOptions.bind PortOptions.destinationPortRange with
    | some pr => "tcp:".toList ++ range pr
    | none =>
      match r.udpOptions.bind PortOptions.destinationPortRange with
      | some pr => "udp:".toList ++ range pr
      | none => []
  r.protocol.getD [] ++ '|' :: r.cidr.getD [] ++ '|' :: port

def IsOpen (r : SecurityRule) : Prop := r.cidr = some anyIPv4

instance (r : SecurityRule) : Decidable (IsOpen r) := inferInstanceAs (Decidable (_ = _))

def toIPv6 (r : SecurityRule) : SecurityRule := { r with cidr := some anyIPv6, cidrType := .cidrBlock }

/-- The keys of the rules for an IPv6 address. -/
def existing (rules : List SecurityRule) : List (List Char) :=
  (rules.filter fun r => ':' ∈ r.cidr.getD []).map ruleKey

/-- The rules that are added: the loop goes over the rules as they were. -/
def mirrored (rules : List SecurityRule) : List SecurityRule :=
  (rules.filter fun r => IsOpen r ∧ (existing rules).contains (ruleKey (toIPv6 r)) = false).map toIPv6

/-- Which calls for the `k`-th list succeed. -/
structure MirrorAnswers where
  get : Nat → Bool := fun _ => true
  update : Nat → Bool := fun _ => true

inductive MirrorError
  | get
  | update
  deriving DecidableEq, Repr

abbrev Lists := List Char → Option RuleList

/-- `updated` are the lists that an update was sent for. -/
structure MirrorRun where
  lists : Lists
  updated : List (List Char) := []
  result : Except MirrorError Unit

def mirrorFrom (a : MirrorAnswers) : Nat → List (List Char) → Lists → MirrorRun
  | _, [], lists => { lists := lists, result := .ok () }
  | k, slID :: ids, lists =>
    match if a.get k then lists slID else none with
    | none => { lists := lists, result := .error .get }
    | some sl =>
      let ingress := mirrored sl.ingress
      let egress := mirrored sl.egress
      if ingress = [] ∧ egress = [] then mirrorFrom a (k + 1) ids lists
      else if a.update k then
        let sl' := { sl with ingress := sl.ingress ++ ingress, egress := sl.egress ++ egress }
        let r := mirrorFrom a (k + 1) ids (Function.update lists slID (some sl'))
        { r with updated := slID :: r.updated }
      else { lists := lists, updated := [slID], result := .error .update }

def mirrorToIPv6 (a : MirrorAnswers) (securityListIDs : List (List Char)) (lists : Lists) : MirrorRun :=
  mirrorFrom a 0 securityListIDs lists

/-! ## What it should do -/

/-- The rule for IPv6 with the same protocol, ports, ICMP options and stateless flag. -/
structure Counterpart (r r' : SecurityRule) : Prop where
  cidr : r'.cidr = some anyIPv6
  protocol : r'.protocol = r.protocol
  tcp : r'.tcpOptions = r.tcpOptions
  udp : r'.udpOptions = r.udpOptions
  icmp : r'.icmpOptions = r.icmpOptions
  stateless : r'.isStateless.getD false = r.isStateless.getD false

/-- The rules of a direction before and after. -/
structure Mirrors (rules rules' : List SecurityRule) : Prop where
  all : ∀ r ∈ rules, IsOpen r → ∃ r' ∈ rules', Counterpart r r'
  only : ∃ added, rules' = rules ++ added ∧ added.Nodup ∧ ∀ r' ∈ added, ∃ r ∈ rules, IsOpen r ∧ Counterpart r r'

/-- An open rule whose key is taken has its counterpart, and an open rule that is there twice has its key taken. -/
structure Distinct (rules : List SecurityRule) : Prop where
  covered : ∀ r ∈ rules, IsOpen r → ruleKey (toIPv6 r) ∈ existing rules → ∃ r' ∈ rules, Counterpart r r'
  once : rules.Pairwise fun r s => IsOpen r → IsOpen s → toIPv6 r = toIPv6 s → ruleKey (toIPv6 r) ∈ existing rules

/-! ## The rules of a direction -/

theorem Counterpart.ruleKey_eq {r r' : SecurityRule} (h : Counterpart r r') : ruleKey r' = ruleKey (toIPv6 r) := by
  unfold ruleKey
  rw [h.cidr, h.protocol, h.tcp, h.udp]
  rfl

theorem counterpart_toIPv6 (r : SecurityRule) : Counterpart r (toIPv6 r) := ⟨rfl, rfl, rfl, rfl, rfl, rfl⟩

theorem contains_eq_false_iff {keys : List (List Char)} {key : List Char} :
    keys.contains key = false ↔ key ∉ keys := by
  rw [← Bool.not_eq_true, List.contains_iff_mem]

theorem mem_mirrored {rules : List SecurityRule} {r' : SecurityRule} :
    r' ∈ mirrored rules ↔ ∃ r ∈ rules, IsOpen r ∧ ruleKey (toIPv6 r) ∉ existing rules ∧ r' = toIPv6 r := by
  unfold mirrored
  simp only [List.mem_map, List.mem_filter, decide_eq_true_eq, contains_eq_false_iff]
  constructor
  · rintro ⟨r, ⟨hr, hopen, hfree⟩, rfl⟩
    exact ⟨r, hr, hopen, hfree, rfl⟩
  · rintro ⟨r, hr, hopen, hfree, rfl⟩
    exact ⟨r, ⟨hr, hopen, hfree⟩, rfl⟩

theorem nodup_mirrored_iff (rules : List SecurityRule) :
    (mirrored rules).Nodup ↔ rules.Pairwise fun r s =>
      IsOpen r → IsOpen s → toIPv6 r = toIPv6 s → ruleKey (toIPv6 r) ∈ existing rules := by
  unfold mirrored List.Nodup
  rw [List.pairwise_map, List.pairwise_filter]
  refine List.pairwise_iff_getElem.trans (Iff.trans ?_ List.pairwise_iff_getElem.symm)
  refine forall_congr' fun i => forall_congr' fun j => forall_congr' fun hi => forall_congr' fun hj =>
    forall_congr' fun _ => ?_
  simp only [decide_eq_true_eq, contains_eq_false_iff]
  constructor
  · intro h hopen hopen' heq
    by_contra hfree
    exact h ⟨hopen, hfree⟩ ⟨hopen', heq ▸ hfree⟩ heq
  · rintro h ⟨hopen, hfree⟩ ⟨hopen', -⟩ heq
    exact hfree (h hopen hopen' heq)

theorem mirrors_append_iff (rules : List SecurityRule) : Mirrors rules (rules ++ mirrored rules) ↔ Distinct rules := by
  constructor
  · rintro ⟨hall, added, hadded, hnodup, -⟩
    obtain rfl := List.append_cancel_left hadded
    refine ⟨fun r hr hopen htaken => ?_, (nodup_mirrored_iff rules).mp hnodup⟩
    obtain ⟨r', hr', hc⟩ := hall r hr hopen
    refine ⟨r', (List.mem_append.mp hr').resolve_right fun hnew => ?_, hc⟩
    -- what is added has a key that is not taken
    obtain ⟨s, -, -, hfree, rfl⟩ := mem_mirrored.mp hnew
    rw [hc.ruleKey_eq] at hfree
    exact hfree htaken
  · rintro ⟨hcovered, honce⟩
    refine ⟨fun r hr hopen => ?_, mirrored rules, rfl, (nodup_mirrored_iff rules).mpr honce, fun r' hr' => ?_⟩
    · by_cases htaken : ruleKey (toIPv6 r) ∈ existing rules
      · obtain ⟨r', hr', hc⟩ := hcovered r hr hopen htaken
        exact ⟨r', List.mem_append_left _ hr', hc⟩
      · exact ⟨_, List.mem_append_right _ (mem_mirrored.mpr ⟨r, hr, hopen, htaken, rfl⟩), counterpart_toIPv6 r⟩
    · obtain ⟨r, hr, hopen, -, rfl⟩ := mem_mirrored.mp hr'
      exact ⟨r, hr, hopen, counterpart_toIPv6 r⟩

/-- Nothing is added a second time. -/
theorem mirrored_append (rules : List SecurityRule) : mirrored (rules ++ mirrored rules) = [] := by
  apply List.eq_nil_iff_forall_not_mem.mpr
  intro r' hr'
  obtain ⟨r, hr, hopen, hfree, -⟩ := mem_mirrored.mp hr'
  apply hfree
  have hkeys : ∀ s, s ∈ rules ++ mirrored rules → ':' ∈ s.cidr.getD [] →
      ruleKey s ∈ existing (rules ++ mirrored rules) := by
    intro s hs hcolon
    exact List.mem_map_of_mem (List.mem_filter.mpr ⟨hs, decide_eq_true hcolon⟩)
  rcases List.mem_append.mp hr with hold | hnew
  · by_cases htaken : ruleKey (toIPv6 r) ∈ existing rules
    · obtain ⟨s, hs, hkey⟩ := List.mem_map.mp htaken
      obtain ⟨hs, hcolon⟩ := List.mem_filter.mp hs
      rw [← hkey]
      exact hkeys s (List.mem_append_left _ hs) (of_decide_eq_true hcolon)
    · exact hkeys _ (List.mem_append_right _ (mem_mirrored.mpr ⟨r, hold, hopen, htaken, rfl⟩))
        (show ':' ∈ anyIPv6 by decide)
  · obtain ⟨s, -, -, -, rfl⟩ := mem_mirrored.mp hnew
    exact absurd hopen (show ¬ some anyIPv6 = some anyIPv4 by decide)

/-! ## The lists of a subnet -/

/-- A list after its turn. -/
def mirrorList (sl : RuleList) : RuleList :=
  { sl with ingress := sl.ingress ++ mirrored sl.ingress, egress := sl.egress ++ mirrored sl.egress }

theorem rules_mirrorList (sl : RuleList) (d : Direction) :
    (mirrorList sl).rules d = sl.rules d ++ mirrored (sl.rules d) := by
  cases d <;> rfl

theorem mirrorList_mirrorList (sl : RuleList) : mirrorList (mirrorList sl) = mirrorList sl := by
  conv_lhs => unfold mirrorList
  simp [mirrorList, mirrored_append]

/-- A list that gets no update is as an update would leave it. -/
theorem mirrorList_eq_self {sl : RuleList} (h : mirrored sl.ingress = [] ∧ mirrored sl.egress = []) :
    mirrorList sl = sl := by
  unfold mirrorList
  rw [h.1, h.2, List.append_nil, List.append_nil]

theorem lists_of_get {get : Bool} {lists : Lists} {id : List Char} {sl : RuleList}
    (h : (if get = true then lists id else none) = some sl) : lists id = some sl := by
  split at h
  · exact h
  · cases h

/-- **What a successful call leaves.** -/
theorem mirrorFrom_ok {a : MirrorAnswers} : ∀ {ids : List (List Char)} {k : Nat} {lists : Lists},
    (mirrorFrom a k ids lists).result = .ok () → ∀ id,
      (mirrorFrom a k ids lists).lists id = if id ∈ ids then (lists id).map mirrorList else lists id := by
  intro ids
  induction ids with
  | nil => exact fun _ _ => by simp [mirrorFrom]
  | cons slID ids ih =>
    intro k lists h id
    rw [mirrorFrom] at h ⊢
    cases hget : (if a.get k = true then lists slID else none) with
    | none =>
      rw [hget] at h
      cases h
    | some sl =>
      have hsl := lists_of_get hget
      simp only [hget] at h ⊢
      split at h
      · next hnone =>
        rw [if_pos hnone, ih h]
        by_cases hid : id = slID
        · have hself : (lists slID).map mirrorList = lists slID := by
            rw [hsl]
            exact congrArg some (mirrorList_eq_self hnone)
          simp [hid, hself]
        · simp [hid]
      · next hsome =>
        rw [if_neg hsome]
        split at h
        · next hupdate =>
          rw [if_pos hupdate]
          dsimp only at h ⊢
          rw [ih h]
          by_cases hid : id = slID
          · subst hid
            have htwice : mirrorList (mirrorList sl) = mirrorList sl := mirrorList_mirrorList sl
            simp only [Function.update_self, List.mem_cons_self, if_true, hsl, Option.map_some]
            change (if id ∈ ids then some (mirrorList (mirrorList sl)) else some (mirrorList sl)) = _
            rw [htwice, ite_self]
          · simp [hid]
        · cases h

/-- Lists that mirror their open rules get no update. -/
theorem mirrorFrom_updated {a : MirrorAnswers} {lists : Lists} : ∀ {ids : List (List Char)} (k : Nat),
    (∀ id ∈ ids, ∀ sl, lists id = some sl → mirrored sl.ingress = [] ∧ mirrored sl.egress = []) →
      (mirrorFrom a k ids lists).updated = [] := by
  intro ids
  induction ids with
  | nil => exact fun _ _ => rfl
  | cons slID ids ih =>
    intro k hlists
    rw [mirrorFrom]
    cases hget : (if a.get k = true then lists slID else none) with
    | none => rfl
    | some sl =>
      have hsl := lists_of_get hget
      dsimp only
      rw [if_pos (hlists slID List.mem_cons_self sl hsl)]
      exact ih (k + 1) fun id hid => hlists id (List.mem_cons_of_mem _ hid)

theorem mirrored_of_mirrorList (sl : RuleList) :
    mirrored (mirrorList sl).ingress = [] ∧ mirrored (mirrorList sl).egress = [] :=
  ⟨mirrored_append sl.ingress, mirrored_append sl.egress⟩

/-- **A successful call mirrors every open rule once if and only if no open rule hides behind another one.** -/
theorem mirrorToIPv6_iff (a : MirrorAnswers) (ids : List (List Char)) (lists : Lists)
    (h : (mirrorToIPv6 a ids lists).result = .ok ()) :
    ((∀ id ∈ ids, ∀ sl, lists id = some sl → ∃ sl', (mirrorToIPv6 a ids lists).lists id = some sl' ∧
          sl'.id = sl.id ∧ ∀ d, Mirrors (sl.rules d) (sl'.rules d)) ∧
        (∀ id, id ∉ ids → (mirrorToIPv6 a ids lists).lists id = lists id) ∧
        ∀ a', (mirrorToIPv6 a' ids (mirrorToIPv6 a ids lists).lists).updated = []) ↔
      ∀ id ∈ ids, ∀ sl, lists id = some sl → ∀ d, Distinct (sl.rules d) := by
  have hafter := mirrorFrom_ok h
  unfold mirrorToIPv6 at h ⊢
  constructor
  · rintro ⟨hmirrors, -, -⟩ id hid sl hsl d
    obtain ⟨sl', hsl', -, hd⟩ := hmirrors id hid sl hsl
    rw [hafter id, if_pos hid, hsl, Option.map_some] at hsl'
    obtain rfl := Option.some.inj hsl'
    apply (mirrors_append_iff _).mp
    rw [← rules_mirrorList]
    exact hd d
  · intro hdistinct
    refine ⟨fun id hid sl hsl => ⟨mirrorList sl, ?_, rfl, fun d => ?_⟩, fun id hid => ?_, fun a' => ?_⟩
    · rw [hafter id, if_pos hid, hsl, Option.map_some]
    · rw [rules_mirrorList]
      exact (mirrors_append_iff _).mpr (hdistinct id hid sl hsl d)
    · rw [hafter id, if_neg hid]
    · apply mirrorFrom_updated
      intro id hid sl hsl
      rw [hafter id, if_pos hid] at hsl
      obtain ⟨before, -, rfl⟩ := Option.map_eq_some_iff.mp hsl
      exact mirrored_of_mirrorList before

private def ping (type : Int) : SecurityRule :=
  { protocol := some "1".toList, cidr := some anyIPv4, icmpOptions := some ⟨some type, none⟩ }

private def pingList : RuleList := { id := "sl".toList, ingress := [ping 8, ping 3, toIPv6 (ping 3)] }

/-- Two rules for ICMP have one key: the second one is taken for a counterpart of the first. -/
theorem ping_is_not_mirrored :
    ¬ ∀ (a : MirrorAnswers) (ids : List (List Char)) (lists : Lists), (mirrorToIPv6 a ids lists).result = .ok () →
      ∀ id ∈ ids, ∀ sl, lists id = some sl → ∃ sl', (mirrorToIPv6 a ids lists).lists id = some sl' ∧
        ∀ d, Mirrors (sl.rules d) (sl'.rules d) := by
  intro h
  obtain ⟨sl', hsl', hmirrors⟩ := h {} [pingList.id] (fun _ => some pingList) (by decide) pingList.id
    List.mem_cons_self pingList rfl
  have hsame : (mirrorToIPv6 {} [pingList.id] fun _ => some pingList).lists pingList.id = some pingList := by decide
  rw [hsame] at hsl'
  obtain rfl := Option.some.inj hsl'
  obtain ⟨r', hr', hc⟩ := (hmirrors .ingress).all (ping 8) (by decide) rfl
  have hnone : ∀ s ∈ pingList.ingress, ¬ (s.cidr = some anyIPv6 ∧ s.icmpOptions = (ping 8).icmpOptions) := by decide
  exact hnone r' hr' ⟨hc.cidr, hc.icmp⟩

private def webList : RuleList :=
  { id := "sl".toList
    ingress := [{ protocol := some "6".toList, cidr := some anyIPv4,
                  tcpOptions := some ⟨some ⟨443, 443⟩, none⟩ }] }

theorem web_is_mirrored :
    ∃ sl', (mirrorToIPv6 {} [webList.id] fun _ => some webList).lists webList.id = some sl' ∧
      sl'.id = webList.id ∧ ∀ d, Mirrors (webList.rules d) (sl'.rules d) := by
  have h := (mirrorToIPv6_iff {} [webList.id] (fun _ => some webList) (by decide)).mpr (by
    rintro id - sl hsl d
    obtain rfl := Option.some.inj hsl
    refine ⟨fun r hr _ htaken => ?_, ?_⟩
    · have hfree : ∀ s ∈ webList.rules d, ruleKey (toIPv6 s) ∉ existing (webList.rules d) := by cases d <;> decide
      exact absurd htaken (hfree r hr)
    · cases d <;> decide)
  exact h.1 _ List.mem_cons_self _ rfl

end OciHelper.Oci
