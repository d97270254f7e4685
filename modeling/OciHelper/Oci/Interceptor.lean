import OciHelper.Lib.StepRun
import Mathlib.Logic.Function.Basic

/-!
# The subtree interceptor

* `withSubtreeInterceptor` : a bracket saves the interceptor of the client and writes it back at its end;
* `listVnicAttachments`, `getInstanceVNICs` : what a goroutine does with one instance;
* `step` : the next action of any goroutine, each with a stack of brackets;
* `Bracketed` : inside a bracket the subtree interceptor is set, and after all of them the one of the client;
* `bracketed_iff` : when this holds throughout an interleaving.

The lock covers the begin of a bracket and the end is one write, so each is a step.
-/

namespace OciHelper.Oci.Interceptor
open StepRun

/-- That of the client before any bracket, and the one that adds `compartmentIdInSubtree=true`. -/
inductive RequestInterceptor
  | own
  | subtree
  deriving DecidableEq, Repr

inductive Action
  | withSubtreeInterceptor
  | cleanup
  | list
  | getVnic
  deriving DecidableEq, Repr

/-- The loop over the pages; a page that fails is the last one. -/
def listVnicAttachments (furtherPages : Nat) : List Action :=
  .withSubtreeInterceptor :: List.replicate (furtherPages + 1) .list ++ [.cleanup]

def getInstanceVNICs (furtherPages vnics : Nat) : List Action :=
  .withSubtreeInterceptor :: listVnicAttachments furtherPages ++ List.replicate vnics .getVnic ++ [.cleanup]

/-- The interceptor of the client, and what the open brackets of each goroutine have saved. -/
structure Client where
  interceptor : RequestInterceptor
  saved : Nat → List RequestInterceptor

def initial : Client where
  interceptor := .own
  saved := fun _ => []

/-- An action of a goroutine. -/
abbrev Event := Nat × Action

def step : Step Client Event
  | c, (g, .withSubtreeInterceptor) =>
    some { interceptor := .subtree, saved := Function.update c.saved g (c.interceptor :: c.saved g) }
  | c, (g, .cleanup) =>
    match c.saved g with
    | [] => none
    | prev :: rest => some { interceptor := prev, saved := Function.update c.saved g rest }
  | c, (g, .list) => if c.saved g = [] then none else some c
  | c, (_, .getVnic) => some c

/-- What the goroutines do, each in its order. -/
def Interleaves (es : List Event) (programs : Nat → List Action) : Prop :=
  ∀ g, (es.filter fun e => e.1 = g).map Prod.snd = programs g

/-- A list request that is sent now carries `compartmentIdInSubtree=true`. -/
def Client.Carries (c : Client) : Prop := c.interceptor = .subtree

def Client.Closed (c : Client) : Prop := ∀ g, c.saved g = []

structure Bracketed (c : Client) : Prop where
  inside : ¬ c.Closed → c.Carries
  after : c.Closed → c.interceptor = .own

/-- The bracket that gives the client its own interceptor back is the last one that is open. -/
def Safe (c : Client) : Event → Prop
  | (g, .cleanup) => ∀ rest, c.saved g = .own :: rest → rest = [] ∧ ∀ g' ≠ g, c.saved g' = []
  | _ => True

/-! ## The bracket that has the client's own interceptor -/

/-- The first bracket of the stack has saved it, and no other bracket. -/
def Keeps (stack : List RequestInterceptor) : Prop := ∃ n, stack = List.replicate n .subtree ++ [.own]

def Nested (stack : List RequestInterceptor) : Prop := ∀ v ∈ stack, v = .subtree

/-- It is not lost: one goroutine keeps it. -/
def Kept (c : Client) : Prop := c.Closed ∨ ∃ g, Keeps (c.saved g) ∧ ∀ g' ≠ g, Nested (c.saved g')

theorem Keeps.ne_nil {stack : List RequestInterceptor} (h : Keeps stack) : stack ≠ [] := by
  obtain ⟨n, rfl⟩ := h
  simp

theorem Keeps.cons {stack : List RequestInterceptor} (h : Keeps stack) : Keeps (.subtree :: stack) := by
  obtain ⟨n, rfl⟩ := h
  exact ⟨n + 1, rfl⟩

theorem Keeps.tail {rest : List RequestInterceptor} (h : Keeps (.subtree :: rest)) : Keeps rest := by
  obtain ⟨n, hn⟩ := h
  cases n with
  | zero => cases hn
  | succ n => exact ⟨n, List.tail_eq_of_cons_eq hn⟩

theorem Nested.cons {stack : List RequestInterceptor} (h : Nested stack) : Nested (.subtree :: stack) :=
  List.forall_mem_cons.mpr ⟨rfl, h⟩

/-- The goroutine that keeps it changes its stack. -/
theorem Kept.of_same {saved : Nat → List RequestInterceptor} {i : RequestInterceptor} {g : Nat}
    {stack : List RequestInterceptor} (hg : Keeps stack) (hother : ∀ g' ≠ g, Nested (saved g')) :
    Kept { interceptor := i, saved := Function.update saved g stack } := by
  refine Or.inr ⟨g, ?_, fun g' hne => ?_⟩
  · show Keeps (Function.update saved g stack g)
    rw [Function.update_self]
    exact hg
  · show Nested (Function.update saved g stack g')
    rw [Function.update_of_ne hne]
    exact hother g' hne

/-- Another goroutine changes its stack. -/
theorem Kept.of_other {saved : Nat → List RequestInterceptor} {i : RequestInterceptor} {g h : Nat} (hne : h ≠ g)
    {stack : List RequestInterceptor} (hh : Keeps (saved h)) (hg : Nested stack)
    (hother : ∀ g' ≠ h, Nested (saved g')) :
    Kept { interceptor := i, saved := Function.update saved g stack } := by
  refine Or.inr ⟨h, ?_, fun g' hg' => ?_⟩
  · show Keeps (Function.update saved g stack h)
    rw [Function.update_of_ne hne]
    exact hh
  · show Nested (Function.update saved g stack g')
    by_cases heq : g' = g
    · subst heq
      rw [Function.update_self]
      exact hg
    · rw [Function.update_of_ne heq]
      exact hother g' hg'

/-! ## Steps -/

theorem not_closed_update {saved : Nat → List RequestInterceptor} {i : RequestInterceptor} {g h : Nat}
    {stack : List RequestInterceptor} (hne : Function.update saved g stack h ≠ []) :
    ¬ Client.Closed { interceptor := i, saved := Function.update saved g stack } := fun hc => hne (hc h)

/-- The interceptor is the subtree one, and some bracket is open. -/
theorem Bracketed.of_open {c : Client} (hi : c.interceptor = .subtree) (ho : ¬ c.Closed) : Bracketed c :=
  ⟨fun _ => hi, fun hc => absurd hc ho⟩

theorem kept_begin {c : Client} (hb : Bracketed c) (hk : Kept c) (g : Nat) :
    Kept { interceptor := .subtree, saved := Function.update c.saved g (c.interceptor :: c.saved g) } := by
  by_cases hclosed : c.Closed
  · rw [hb.after hclosed, hclosed g]
    exact .of_same ⟨0, rfl⟩ fun g' _ v hv => by
      rw [hclosed g'] at hv
      cases hv
  · rw [hb.inside hclosed]
    obtain hc | ⟨h, hh, hother⟩ := hk
    · exact absurd hc hclosed
    by_cases heq : g = h
    · subst heq
      exact .of_same hh.cons hother
    · exact .of_other (Ne.symm heq) hh (hother g heq).cons hother

/-- The end of a bracket that has saved the subtree interceptor. -/
theorem cleanup_nested {c : Client} {g : Nat} {rest : List RequestInterceptor} (hk : Kept c)
    (hs : c.saved g = .subtree :: rest) :
    Kept { interceptor := .subtree, saved := Function.update c.saved g rest } ∧
      ¬ Client.Closed { interceptor := .subtree, saved := Function.update c.saved g rest } := by
  obtain hc | ⟨h, hh, hother⟩ := hk
  · cases (hc g).symm.trans hs
  by_cases heq : g = h
  · subst heq
    rw [hs] at hh
    refine ⟨.of_same hh.tail hother, not_closed_update (h := g) ?_⟩
    rw [Function.update_self]
    exact hh.tail.ne_nil
  · have hg : Nested rest := by
      have := hother g heq
      rw [hs] at this
      exact (List.forall_mem_cons.mp this).2
    refine ⟨.of_other (Ne.symm heq) hh hg hother, not_closed_update (h := h) ?_⟩
    rw [Function.update_of_ne (Ne.symm heq)]
    exact hh.ne_nil

/-- The end of a bracket that has saved the interceptor of the client. -/
theorem cleanup_own_closed_iff (c : Client) (g : Nat) (rest : List RequestInterceptor) :
    Client.Closed { interceptor := .own, saved := Function.update c.saved g rest } ↔
      rest = [] ∧ ∀ g' ≠ g, c.saved g' = [] := by
  constructor
  · intro hc
    constructor
    · have hg : Function.update c.saved g rest g = [] := hc g
      rwa [Function.update_self] at hg
    · intro g' hne
      have hg : Function.update c.saved g rest g' = [] := hc g'
      rwa [Function.update_of_ne hne] at hg
  · rintro ⟨rfl, hother⟩ g'
    show Function.update c.saved g [] g' = []
    by_cases heq : g' = g
    · subst heq
      exact Function.update_self ..
    · rw [Function.update_of_ne heq]
      exact hother g' heq

/-- What a step can do. -/
theorem step_cases {c c' : Client} {g : Nat} {action : Action} (h : step c (g, action) = some c') :
    (action = .withSubtreeInterceptor ∧
      c' = { interceptor := .subtree, saved := Function.update c.saved g (c.interceptor :: c.saved g) }) ∨
    (∃ prev rest, action = .cleanup ∧ c.saved g = prev :: rest ∧
      c' = { interceptor := prev, saved := Function.update c.saved g rest }) ∨
    (action ≠ .cleanup ∧ c' = c) := by
  cases action with
  | withSubtreeInterceptor => exact Or.inl ⟨rfl, (Option.some.inj h).symm⟩
  | cleanup =>
    have h : (match c.saved g with
      | [] => none
      | prev :: rest => some { interceptor := prev, saved := Function.update c.saved g rest }) = some c' := h
    cases hs : c.saved g with
    | nil =>
      rw [hs] at h
      cases h
    | cons prev rest =>
      rw [hs] at h
      exact Or.inr (Or.inl ⟨prev, rest, rfl, rfl, (Option.some.inj h).symm⟩)
  | list =>
    have h : (if c.saved g = [] then none else some c) = some c' := h
    split at h
    · cases h
    · exact Or.inr (Or.inr ⟨by decide, (Option.some.inj h).symm⟩)
  | getVnic => exact Or.inr (Or.inr ⟨by decide, (Option.some.inj h).symm⟩)

theorem safe_cleanup_iff {c : Client} {g : Nat} {rest : List RequestInterceptor} (hs : c.saved g = .own :: rest) :
    Safe c (g, .cleanup) ↔ rest = [] ∧ ∀ g' ≠ g, c.saved g' = [] := by
  show (∀ rest, c.saved g = .own :: rest → _) ↔ _
  rw [hs]
  constructor
  · exact fun h => h rest rfl
  · rintro h rest' heq
    rwa [← List.tail_eq_of_cons_eq heq]

theorem safe_of_ne {c : Client} {g : Nat} {action : Action} (h : action ≠ .cleanup) : Safe c (g, action) := by
  cases action with
  | cleanup => exact absurd rfl h
  | withSubtreeInterceptor => trivial
  | list => trivial
  | getVnic => trivial

theorem step_bracketed_iff (c : Client) (e : Event) (c' : Client) (hb : Bracketed c) (hk : Kept c)
    (h : step c e = some c') : Bracketed c' ↔ Safe c e := by
  obtain ⟨g, action⟩ := e
  obtain ⟨rfl, rfl⟩ | ⟨prev, rest, rfl, hs, rfl⟩ | ⟨hne, rfl⟩ := step_cases h
  · refine iff_of_true (.of_open rfl (not_closed_update (h := g) ?_)) trivial
    rw [Function.update_self]
    exact List.cons_ne_nil _ _
  · cases prev with
    | own =>
      rw [safe_cleanup_iff hs, ← cleanup_own_closed_iff]
      constructor
      · intro hb'
        by_contra hopen
        cases hb'.inside hopen
      · exact fun hc => ⟨fun ho => absurd hc ho, fun _ => rfl⟩
    | subtree =>
      refine iff_of_true (.of_open rfl (cleanup_nested hk hs).2) fun rest' hs' => ?_
      cases hs.symm.trans hs'
  · exact iff_of_true hb (safe_of_ne hne)

theorem step_kept (c : Client) (e : Event) (c' : Client) (hb : Bracketed c) (hk : Kept c) (hsafe : Safe c e)
    (h : step c e = some c') : Kept c' := by
  obtain ⟨g, action⟩ := e
  obtain ⟨rfl, rfl⟩ | ⟨prev, rest, rfl, hs, rfl⟩ | ⟨-, rfl⟩ := step_cases h
  · exact kept_begin hb hk g
  · cases prev with
    | own => exact Or.inl ((cleanup_own_closed_iff c g rest).mpr ((safe_cleanup_iff hs).mp hsafe))
    | subtree => exact (cleanup_nested hk hs).1
  · exact hk

theorem list_carries {c c' : Client} {g : Nat} (hb : Bracketed c) (h : step c (g, .list) = some c') : c.Carries := by
  refine hb.inside fun hc => ?_
  have h : (if c.saved g = [] then none else some c) = some c' := h
  rw [if_pos (hc g)] at h
  cases h

/-! ## The programs -/

/-- How many brackets of a goroutine are open after its actions, if they can be done in this order. -/
def depth : Nat → List Action → Option Nat
  | d, [] => some d
  | d, .withSubtreeInterceptor :: as => depth (d + 1) as
  | 0, .cleanup :: _ => none
  | d + 1, .cleanup :: as => depth d as
  | 0, .list :: _ => none
  | d + 1, .list :: as => depth (d + 1) as
  | d, .getVnic :: as => depth d as

theorem depth_lists (d n : Nat) (as : List Action) :
    depth (d + 1) (List.replicate n .list ++ as) = depth (d + 1) as := by
  induction n with
  | zero => rfl
  | succ n ih =>
    rw [List.replicate_succ, List.cons_append]
    exact ih

theorem depth_getVnics (d n : Nat) (as : List Action) :
    depth d (List.replicate n .getVnic ++ as) = depth d as := by
  induction n with
  | zero => rfl
  | succ n ih =>
    rw [List.replicate_succ, List.cons_append]
    cases d <;> exact ih

theorem depth_getInstanceVNICs (furtherPages vnics : Nat) :
    depth 0 (getInstanceVNICs furtherPages vnics) = some 0 := by
  unfold getInstanceVNICs listVnicAttachments
  simp only [List.cons_append, List.append_assoc]
  show depth 2 _ = some 0
  rw [depth_lists]
  show depth 1 _ = some 0
  rw [List.nil_append, depth_getVnics]
  rfl

/-- The actions of one goroutine. -/
def actions (g : Nat) (es : List Event) : List Action := (es.filter fun e => e.1 = g).map Prod.snd

theorem actions_cons_self (g : Nat) (a : Action) (es : List Event) :
    actions g ((g, a) :: es) = a :: actions g es := by
  simp [actions]

theorem actions_cons_ne {g g' : Nat} (h : g' ≠ g) (a : Action) (es : List Event) :
    actions g' ((g, a) :: es) = actions g' es := by
  simp [actions, Ne.symm h]

/-- A step of a goroutine whose actions can be done. -/
theorem step_of_depth {c : Client} {g d : Nat} {a : Action} {as : List Action}
    (h : depth (c.saved g).length (a :: as) = some d) :
    ∃ c', step c (g, a) = some c' ∧ depth (c'.saved g).length as = some d ∧
      ∀ g' ≠ g, c'.saved g' = c.saved g' := by
  cases a with
  | withSubtreeInterceptor =>
    refine ⟨_, rfl, ?_, fun g' hne => Function.update_of_ne hne ..⟩
    show depth (Function.update c.saved g (c.interceptor :: c.saved g) g).length as = _
    rw [Function.update_self]
    exact h
  | cleanup =>
    cases hs : c.saved g with
    | nil =>
      rw [hs] at h
      cases h
    | cons prev rest =>
      refine ⟨{ interceptor := prev, saved := Function.update c.saved g rest }, ?_, ?_,
        fun g' hne => Function.update_of_ne hne ..⟩
      · show (match c.saved g with
          | [] => none
          | prev :: rest => some (Client.mk prev (Function.update c.saved g rest))) = _
        rw [hs]
      · show depth (Function.update c.saved g rest g).length as = _
        rw [Function.update_self]
        rw [hs] at h
        exact h
  | list =>
    cases hs : c.saved g with
    | nil =>
      rw [hs] at h
      cases h
    | cons prev rest =>
      refine ⟨c, ?_, ?_, fun _ _ => rfl⟩
      · show (if c.saved g = [] then none else some c) = some c
        rw [hs]
        rfl
      · rw [hs] at h ⊢
        exact h
  | getVnic =>
    refine ⟨c, rfl, ?_, fun _ _ => rfl⟩
    cases hs : c.saved g with
    | nil =>
      rw [hs] at h
      exact h
    | cons prev rest =>
      rw [hs] at h
      exact h

theorem exec_of_depth (es : List Event) : ∀ (c : Client),
    (∀ g, depth (c.saved g).length (actions g es) = some 0) → ∃ c', exec step c es = some c' ∧ c'.Closed := by
  induction es with
  | nil => exact fun c h => ⟨c, rfl, fun g => List.eq_nil_of_length_eq_zero (Option.some.inj (h g))⟩
  | cons e es ih =>
    intro c h
    obtain ⟨g, a⟩ := e
    have hg := h g
    rw [actions_cons_self] at hg
    obtain ⟨c₁, hs, hd, hsame⟩ := step_of_depth hg
    obtain ⟨c', he, hc⟩ := ih c₁ fun g' => by
      by_cases hne : g' = g
      · rw [hne]
        exact hd
      · rw [hsame g' hne, ← actions_cons_ne hne a]
        exact h g'
    exact ⟨c', Option.bind_eq_some_iff.mpr ⟨c₁, hs, he⟩, hc⟩

/-- `FetchInstancesTrafficDetail`: every interleaving of its goroutines is a run, after which no bracket is open. -/
theorem interleaving_closed {es : List Event} {programs : Nat → List Action} (h : Interleaves es programs)
    (hp : ∀ g, programs g = [] ∨ ∃ furtherPages vnics, programs g = getInstanceVNICs furtherPages vnics) :
    ∃ c, exec step initial es = some c ∧ c.Closed := by
  refine exec_of_depth es initial fun g => ?_
  show depth 0 (actions g es) = some 0
  rw [show actions g es = programs g from h g]
  obtain hnil | ⟨furtherPages, vnics, heq⟩ := hp g
  · rw [hnil]
    rfl
  · rw [heq]
    exact depth_getInstanceVNICs furtherPages vnics

/-! ## Interleavings -/

/-- In every interleaving of bracketed uses, list requests in a bracket carry the flag and the client has its own
interceptor after all brackets, in all states, if and only if the bracket that saved it is always the last one to
end. -/
theorem bracketed_iff {c : Client} {es : List Event} (h : exec step initial es = some c) :
    Throughout step Bracketed initial es ↔ Run step Safe initial es c :=
  throughout_iff_of_invariant step_bracketed_iff step_kept ⟨fun h => absurd (fun _ => rfl) h, fun _ => rfl⟩
    (Or.inl fun _ => rfl) h

/-- The bracket of the second goroutine ends before that of the first one. -/
def inside : List Event :=
  [(0, .withSubtreeInterceptor), (1, .withSubtreeInterceptor), (1, .list), (1, .cleanup), (0, .cleanup)]

theorem inside_bracketed : ∃ c, exec step initial inside = some c ∧ Throughout step Bracketed initial inside := by
  refine ⟨_, rfl, (bracketed_iff rfl).mpr ?_⟩
  refine .cons trivial rfl (.cons trivial rfl (.cons trivial rfl (.cons ?_ rfl (.cons ?_ rfl (.nil _)))))
  · intro rest h
    cases h
  · intro rest h
    cases h
    refine ⟨rfl, fun g' hne => ?_⟩
    match g' with
    | 0 => exact absurd rfl hne
    | 1 => rfl
    | n + 2 => rfl

/-- The outer bracket of the first goroutine ends while the second one is about to send its list request. -/
def overlapping : List Event :=
  [(0, .withSubtreeInterceptor), (1, .withSubtreeInterceptor), (1, .withSubtreeInterceptor),
    (0, .withSubtreeInterceptor), (0, .list), (0, .cleanup), (0, .getVnic), (0, .cleanup)]

def afterwards : List Event := [(1, .list), (1, .cleanup), (1, .getVnic), (1, .cleanup)]

theorem overlapping_loses : ∃ c c', exec step initial overlapping = some c ∧
    exec step c afterwards = some c' ∧ ¬ c.Carries ∧ c'.Closed ∧ c'.interceptor = .subtree ∧
      Interleaves (overlapping ++ afterwards) fun g => if g < 2 then getInstanceVNICs 0 1 else [] := by
  refine ⟨_, _, rfl, rfl, fun h => ?_, fun g => ?_, rfl, fun g => ?_⟩
  · cases h
  · match g with
    | 0 => rfl
    | 1 => rfl
    | n + 2 => rfl
  · match g with
    | 0 => rfl
    | 1 => rfl
    | n + 2 => rfl

end OciHelper.Oci.Interceptor
