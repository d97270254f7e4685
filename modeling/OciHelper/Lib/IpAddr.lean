import Mathlib.Algebra.Group.Nat.Defs
import Mathlib.Data.List.TakeWhile

/-!
# Texts of internet addresses

A text is the list of its characters.

* `parseAddr`, `parseIP`, `parseCIDR` : the addresses and networks that a text denotes; `dtoi` : the number of a mask;
* `ipString` : the text of an address; `longestRun` : the zeros that `::` stands for;
* `parseGroups_joined`, `parseAddr_v6Text` : the groups of a text, and the text of an IPv6 address, are read back;
* `IPNet.contains`, `isLoopback`, `isPrivate` : which addresses are in a network;
* `splitHostPort`, `joinHostPort` : an address with a port; `splitHostPort_joinHostPort` : it is taken apart again.
-/

namespace IpAddr

/-- An IPv4 address stands behind the prefix `::ffff:0:0/96`. -/
abbrev IP := BitVec 128

def is4 (ip : IP) : Bool := ip.toNat / 2 ^ 32 = 0xffff

def ofV4 (n : Nat) : IP := BitVec.ofNat 128 (0xffff * 2 ^ 32 + n)

/-! ## Reading -/

/-- One of the four numbers of an IPv4 address. -/
def octet? (s : List Char) : Option Nat :=
  if s = [] ∨ ¬ s.all Char.isDigit ∨ (1 < s.length ∧ s.head? = some '0') then none
  else if 255 < Nat.ofDigitChars 10 s 0 then none
  else some (Nat.ofDigitChars 10 s 0)

def parseIPv4Fields (s : List Char) : Option Nat :=
  match s.splitOn '.' with
  | [a, b, c, d] => do
    let a ← octet? a
    let b ← octet? b
    let c ← octet? c
    let d ← octet? d
    some (((a * 256 + b) * 256 + c) * 256 + d)
  | _ => none

def hexVal? (c : Char) : Option Nat :=
  if '0' ≤ c ∧ c ≤ '9' then some (c.toNat - '0'.toNat)
  else if 'a' ≤ c ∧ c ≤ 'f' then some (c.toNat - 'a'.toNat + 10)
  else if 'A' ≤ c ∧ c ≤ 'F' then some (c.toNat - 'A'.toNat + 10)
  else none

def isHex (c : Char) : Bool := (hexVal? c).isSome

def hexValue (s : List Char) : Nat := s.foldl (fun n c => n * 16 + (hexVal? c).getD 0) 0

/-- The loop over the groups: at most `fuel` more of them. `ellipsis` is the number of groups before the `::`. The
result has the groups, the `::` and the text that is left. -/
def parseGroups : (fuel : Nat) → (groups : List Nat) → (ellipsis : Option Nat) → List Char →
    Option (List Nat × Option Nat × List Char)
  | 0, groups, ellipsis, s => some (groups, ellipsis, s)
  | fuel + 1, groups, ellipsis, s =>
    let digits := s.takeWhile isHex
    if digits = [] ∨ 4 < digits.length then none
    else
      let more := groups ++ [hexValue digits]
      match s.dropWhile isHex with
      | [] => some (more, ellipsis, [])
      | '.' :: _ =>
        -- an IPv4 address in the place of the last two groups
        if (ellipsis = none ∧ groups.length ≠ 6) ∨ 8 < groups.length + 2 then none
        else (parseIPv4Fields s).map fun n => (groups ++ [n / 65536, n % 65536], ellipsis, [])
      | [':'] => none
      | ':' :: ':' :: rest =>
        if ellipsis.isSome then none
        else if rest = [] then some (more, some more.length, [])
        else parseGroups fuel more (some more.length) rest
      | ':' :: rest => parseGroups fuel more ellipsis rest
      | _ => none

/-- Put the zeros of the `::` between the groups. -/
def expand (groups : List Nat) : Option Nat → Option (List Nat)
  | none => if groups.length < 8 then none else some groups
  | some e =>
    if groups.length < 8 then some (groups.take e ++ List.replicate (8 - groups.length) 0 ++ groups.drop e) else none

def ofGroups (groups : List Nat) : Nat := groups.foldl (fun n g => n * 65536 + g) 0

/-- Nothing may be left of the text. -/
def finish (parsed : List Nat × Option Nat × List Char) : Option IP :=
  if parsed.2.2 ≠ [] then none
  else (expand parsed.1 parsed.2.1).map fun groups => BitVec.ofNat 128 (ofGroups groups)

/-- An address without its zone. -/
def parseIPv6 : List Char → Option IP
  | [':', ':'] => some 0
  | ':' :: ':' :: rest => (parseGroups 8 [] (some 0) rest).bind finish
  | s => (parseGroups 8 [] none s).bind finish

/-- What `netip.ParseAddr` returns. -/
structure Addr where
  ip : IP
  bitLen : Nat
  zone : List Char := []
  deriving DecidableEq, Repr

/-- The first of three characters says what the text is. -/
def parseAddr (s : List Char) : Option Addr :=
  match s.find? (fun c => c = '.' ∨ c = ':' ∨ c = '%') with
  | some '.' => (parseIPv4Fields s).map fun n => ⟨ofV4 n, 32, []⟩
  | some ':' =>
    match s.dropWhile (· ≠ '%') with
    | [] => (parseIPv6 s).map fun ip => ⟨ip, 128, []⟩
    | ['%'] => none
    | _ :: zone => (parseIPv6 (s.takeWhile (· ≠ '%'))).map fun ip => ⟨ip, 128, zone⟩
  | _ => none

def parseIP (s : List Char) : Option IP := (parseAddr s).bind fun a => if a.zone = [] then some a.ip else none

/-! ## Networks -/

/-- `ones` counts within `bitLen`. -/
structure IPNet where
  ip : IP
  ones : Nat
  bitLen : Nat
  deriving DecidableEq, Repr

/-- An address with all but its first bits cleared. -/
def mask (ip : IP) (ones : Nat) : IP := BitVec.ofNat 128 (ip.toNat / 2 ^ (128 - ones) * 2 ^ (128 - ones))

def dtoi (s : List Char) : Option Nat := if s = [] ∨ ¬ s.all Char.isDigit then none else some (Nat.ofDigitChars 10 s 0)

/-- The address as it stands, and its network. -/
def parseCIDR (s : List Char) : Option (IP × IPNet) :=
  match s.dropWhile (· ≠ '/') with
  | [] => none
  | _ :: digits => do
    let a ← parseAddr (s.takeWhile (· ≠ '/'))
    let n ← dtoi digits
    if a.zone ≠ [] ∨ a.bitLen < n then none
    else some (a.ip, ⟨mask a.ip (128 - a.bitLen + n), n, a.bitLen⟩)

/-- An IPv4 network has only IPv4 addresses, and no other network has any. -/
def IPNet.contains (n : IPNet) (ip : IP) : Bool :=
  is4 n.ip == is4 ip && mask n.ip (128 - n.bitLen + n.ones) == mask ip (128 - n.bitLen + n.ones)

/-- Some address is in both. -/
def IPNet.Overlaps (n n' : IPNet) : Prop := ∃ ip, n.contains ip = true ∧ n'.contains ip = true

/-- `k` counts from the first byte. -/
def byte (ip : IP) (k : Nat) : Nat := ip.toNat / 256 ^ (15 - k) % 256

def setByte (ip : IP) (k b : Nat) : IP :=
  BitVec.ofNat 128 (ip.toNat / 256 ^ (16 - k) * 256 ^ (16 - k) + b * 256 ^ (15 - k) + ip.toNat % 256 ^ (15 - k))

def isLoopback (ip : IP) : Bool := if is4 ip then byte ip 12 = 127 else ip = 1

def isPrivate (ip : IP) : Bool :=
  if is4 ip then
    byte ip 12 = 10 ∨ (byte ip 12 = 172 ∧ byte ip 13 / 16 = 1) ∨ (byte ip 12 = 192 ∧ byte ip 13 = 168)
  else byte ip 0 / 2 = 0x7e

/-! ## Writing -/

def toGroups (ip : IP) : List Nat := (List.range 8).map fun k => ip.toNat / 65536 ^ (7 - k) % 65536

/-- How many groups from the place on are zero. -/
def zerosFrom (groups : List Nat) (k : Nat) : Nat := ((groups.drop k).takeWhile (· = 0)).length

/-- The place and the length of the first longest run of at least two zeros; the length is 0 if there is none. -/
def longestRun (groups : List Nat) : Nat × Nat :=
  (List.range 8).foldl
    (fun best k => if 2 ≤ zerosFrom groups k ∧ best.2 < zerosFrom groups k then (k, zerosFrom groups k) else best)
    (0, 0)

def joined (groups : List Nat) : List Char := [':'].intercalate (groups.map (Nat.toDigits 16))

def v6Text (groups : List Nat) : List Char :=
  let run := longestRun groups
  if run.2 = 0 then joined groups else joined (groups.take run.1) ++ [':', ':'] ++ joined (groups.drop (run.1 + run.2))

def v4Text (ip : IP) : List Char := ['.'].intercalate ((List.range 4).map fun k => Nat.toDigits 10 (byte ip (12 + k)))

def ipString (ip : IP) : List Char := if is4 ip then v4Text ip else v6Text (toGroups ip)

/-! ## Ports -/

/-- The host and the port. -/
def splitHostPort (s : List Char) : Option (List Char × List Char) :=
  -- the port starts after the last colon
  match s.reverse.dropWhile (· ≠ ':') with
  | [] => none
  | _ :: front =>
    let port := (s.reverse.takeWhile (· ≠ ':')).reverse
    match s with
    | '[' :: inner =>
      match inner.dropWhile (· ≠ ']') with
      | [] => none
      | _ :: after =>
        if after ≠ ':' :: port then none
        else
          let host := inner.takeWhile (· ≠ ']')
          if '[' ∈ inner ∨ ']' ∈ after then none else some (host, port)
    | _ =>
      let host := front.reverse
      if ':' ∈ host ∨ '[' ∈ s ∨ ']' ∈ s then none else some (host, port)

def joinHostPort (host port : List Char) : List Char :=
  if ':' ∈ host then '[' :: host ++ [']', ':'] ++ port else host ++ ':' :: port

/-! ## Groups are read back -/

theorem hexVal?_digitChar {d : Nat} (h : d < 16) : hexVal? d.digitChar = some d := by
  revert d
  decide

theorem hexValue_append_singleton (s : List Char) (c : Char) :
    hexValue (s ++ [c]) = hexValue s * 16 + (hexVal? c).getD 0 := by
  simp [hexValue, List.foldl_append]

/-- A number is written in hexadecimal digits, which say the number. -/
theorem toDigits_hex (n : Nat) : (∀ c ∈ Nat.toDigits 16 n, isHex c = true) ∧ hexValue (Nat.toDigits 16 n) = n := by
  induction n using Nat.strong_induction_on with
  | _ n ih =>
    rw [Nat.toDigits_eq_if (by decide)]
    split
    · next hlt =>
      have hval := hexVal?_digitChar hlt
      constructor
      · intro c hc
        rw [List.mem_singleton.mp hc, isHex, hval]
        rfl
      · simp [hexValue, hval]
    · next hge =>
      obtain ⟨hhex, hvalue⟩ := ih (n / 16) (by omega)
      have hval := hexVal?_digitChar (Nat.mod_lt n (by decide : 0 < 16))
      constructor
      · intro c hc
        rcases List.mem_append.mp hc with hc | hc
        · exact hhex c hc
        · rw [List.mem_singleton.mp hc, isHex, hval]
          rfl
      · rw [hexValue_append_singleton, hvalue, hval, Option.getD_some]
        omega

theorem isHex_of_mem_toDigits {n : Nat} {c : Char} (h : c ∈ Nat.toDigits 16 n) : isHex c = true :=
  (toDigits_hex n).1 c h

/-- The digits of a group end where the text goes on with another character. -/
theorem takeWhile_group (g : Nat) {r : List Char} (hr : ∀ c ∈ r.head?, isHex c = false) :
    (Nat.toDigits 16 g ++ r).takeWhile isHex = Nat.toDigits 16 g ∧ (Nat.toDigits 16 g ++ r).dropWhile isHex = r := by
  have hall : ∀ c ∈ Nat.toDigits 16 g, isHex c = true := fun c hc => isHex_of_mem_toDigits hc
  rw [List.takeWhile_append_of_pos hall, List.dropWhile_append_of_pos hall]
  cases r with
  | nil => simp
  | cons c r =>
    have hc : ¬ isHex c = true := Bool.eq_false_iff.mp (hr c rfl)
    rw [List.takeWhile_cons_of_neg hc, List.dropWhile_cons_of_neg hc, List.append_nil]
    exact ⟨rfl, rfl⟩

theorem length_group {g : Nat} (h : g < 65536) :
    ¬ (Nat.toDigits 16 g = [] ∨ 4 < (Nat.toDigits 16 g).length) := by
  have hlen : (Nat.toDigits 16 g).length ≤ 4 := (Nat.length_toDigits_le_iff (by decide) (by decide)).mpr h
  rintro (hnil | hlong)
  · exact Nat.toDigits_ne_nil hnil
  · omega

section Groups
variable {g : Nat} (hg : g < 65536) (fuel : Nat) (groups : List Nat)
include hg

theorem parseGroups_last (ellipsis : Option Nat) :
    parseGroups (fuel + 1) groups ellipsis (Nat.toDigits 16 g) = some (groups ++ [g], ellipsis, []) := by
  have hsplit := takeWhile_group g (r := []) (fun c hc => by cases hc)
  rw [List.append_nil] at hsplit
  simp only [parseGroups, hsplit.1, hsplit.2, if_neg (length_group hg), (toDigits_hex g).2]

theorem parseGroups_colon (ellipsis : Option Nat) {c : Char} (hc : isHex c = true) (rest : List Char) :
    parseGroups (fuel + 1) groups ellipsis (Nat.toDigits 16 g ++ ':' :: c :: rest) =
      parseGroups fuel (groups ++ [g]) ellipsis (c :: rest) := by
  have hsplit := takeWhile_group g (r := ':' :: c :: rest) (fun c hc => by cases hc; decide)
  have hcolon : c ≠ ':' := by
    rintro rfl
    revert hc
    decide
  simp only [parseGroups, hsplit.1, hsplit.2, if_neg (length_group hg), (toDigits_hex g).2]
  simp [hcolon]

theorem parseGroups_ellipsis (rest : List Char) :
    parseGroups (fuel + 1) groups none (Nat.toDigits 16 g ++ ':' :: ':' :: rest) =
      if rest = [] then some (groups ++ [g], some (groups.length + 1), [])
      else parseGroups fuel (groups ++ [g]) (some (groups.length + 1)) rest := by
  have hsplit := takeWhile_group g (r := ':' :: ':' :: rest) (fun c hc => by cases hc; decide)
  simp only [parseGroups, hsplit.1, hsplit.2, if_neg (length_group hg), (toDigits_hex g).2]
  simp

end Groups

theorem joined_cons (g g' : Nat) (gs : List Nat) :
    joined (g :: g' :: gs) = Nat.toDigits 16 g ++ ':' :: joined (g' :: gs) := by
  simp [joined, List.intercalate]

theorem joined_singleton (g : Nat) : joined [g] = Nat.toDigits 16 g := by
  simp [joined, List.intercalate]

theorem joined_head (g : Nat) (gs : List Nat) : ∃ c cs, joined (g :: gs) = c :: cs ∧ isHex c = true := by
  obtain ⟨c, cs, h⟩ := List.exists_cons_of_ne_nil (Nat.toDigits_ne_nil (n := g) (b := 16))
  have hc : isHex c = true := isHex_of_mem_toDigits (n := g) (h ▸ List.mem_cons_self ..)
  cases gs with
  | nil => exact ⟨c, cs, (joined_singleton g).trans h, hc⟩
  | cons g' gs =>
    rw [joined_cons, h]
    exact ⟨c, _, rfl, hc⟩

/-- Joined groups at the end of a text. -/
theorem parseGroups_joined (ellipsis : Option Nat) : ∀ (gs : List Nat) (fuel : Nat) (groups : List Nat), gs ≠ [] →
    (∀ g ∈ gs, g < 65536) → gs.length ≤ fuel →
      parseGroups fuel groups ellipsis (joined gs) = some (groups ++ gs, ellipsis, []) := by
  intro gs
  induction gs with
  | nil => exact fun _ _ h => absurd rfl h
  | cons g gs ih =>
    intro fuel groups _ hall hfuel
    obtain ⟨fuel, rfl⟩ : ∃ k, fuel = k + 1 := ⟨fuel - 1, by simp only [List.length_cons] at hfuel; omega⟩
    have hg : g < 65536 := hall g (List.mem_cons_self ..)
    cases gs with
    | nil => rw [joined_singleton, parseGroups_last hg]
    | cons g' gs =>
      obtain ⟨c, cs, hhead, hc⟩ := joined_head g' gs
      have hrec := ih fuel (groups ++ [g]) (List.cons_ne_nil _ _) (fun k hk => hall k (List.mem_cons_of_mem _ hk))
        (by simp only [List.length_cons] at hfuel ⊢; omega)
      rw [joined_cons, hhead, parseGroups_colon hg fuel groups ellipsis hc, ← hhead, hrec, List.append_assoc]
      rfl

/-- Joined groups before the zeros. -/
theorem parseGroups_joined_ellipsis (rest : List Char) : ∀ (gs : List Nat) (fuel : Nat) (groups : List Nat), gs ≠ [] →
    (∀ g ∈ gs, g < 65536) → gs.length ≤ fuel →
      parseGroups fuel groups none (joined gs ++ ':' :: ':' :: rest) =
        if rest = [] then some (groups ++ gs, some (groups.length + gs.length), [])
        else parseGroups (fuel - gs.length) (groups ++ gs) (some (groups.length + gs.length)) rest := by
  intro gs
  induction gs with
  | nil => exact fun _ _ h => absurd rfl h
  | cons g gs ih =>
    intro fuel groups _ hall hfuel
    obtain ⟨fuel, rfl⟩ : ∃ k, fuel = k + 1 := ⟨fuel - 1, by simp only [List.length_cons] at hfuel; omega⟩
    have hg : g < 65536 := hall g (List.mem_cons_self ..)
    cases gs with
    | nil =>
      rw [joined_singleton, parseGroups_ellipsis hg]
      rfl
    | cons g' gs =>
      obtain ⟨c, cs, hhead, hc⟩ := joined_head g' gs
      have hrec := ih fuel (groups ++ [g]) (List.cons_ne_nil _ _) (fun k hk => hall k (List.mem_cons_of_mem _ hk))
        (by simp only [List.length_cons] at hfuel ⊢; omega)
      have hlen : (groups ++ [g]).length + (g' :: gs).length = groups.length + (g :: g' :: gs).length := by
        simp only [List.length_append, List.length_cons, List.length_nil]
        omega
      have hfuel' : fuel - (g' :: gs).length = fuel + 1 - (g :: g' :: gs).length := by
        simp only [List.length_cons]
        omega
      rw [hhead, List.cons_append] at hrec
      rw [joined_cons, hhead, List.append_assoc, List.cons_append, List.cons_append,
        parseGroups_colon hg fuel groups none hc, hrec, hlen, hfuel', List.append_assoc]
      rfl

/-! ## The run of zeros -/

/-- A run of zeros in a list of eight groups. -/
structure IsRun (groups : List Nat) (run : Nat × Nat) : Prop where
  bound : run.1 + run.2 ≤ groups.length
  zeros : groups = groups.take run.1 ++ List.replicate run.2 0 ++ groups.drop (run.1 + run.2)

theorem isRun_zerosFrom {groups : List Nat} {k : Nat} (hk : k ≤ groups.length) :
    IsRun groups (k, zerosFrom groups k) := by
  have hlen : zerosFrom groups k ≤ (groups.drop k).length := (List.takeWhile_prefix _).length_le
  constructor
  · dsimp only
    rw [List.length_drop] at hlen
    omega
  · have hzeros : (groups.drop k).takeWhile (· = 0) = List.replicate (zerosFrom groups k) 0 := by
      apply List.eq_replicate_of_mem
      intro g hg
      simpa using List.mem_takeWhile_imp hg
    have hrest : (groups.drop k).dropWhile (· = 0) = groups.drop (k + zerosFrom groups k) := by
      calc (groups.drop k).dropWhile (· = 0)
          = ((groups.drop k).takeWhile (· = 0) ++ (groups.drop k).dropWhile (· = 0)).drop (zerosFrom groups k) :=
            (List.drop_left' rfl).symm
        _ = (groups.drop k).drop (zerosFrom groups k) := by rw [List.takeWhile_append_dropWhile]
        _ = groups.drop (k + zerosFrom groups k) := List.drop_drop
    calc groups = groups.take k ++ groups.drop k := (List.take_append_drop ..).symm
      _ = groups.take k ++ ((groups.drop k).takeWhile (· = 0) ++ (groups.drop k).dropWhile (· = 0)) := by
        rw [List.takeWhile_append_dropWhile]
      _ = _ := by rw [hzeros, hrest, List.append_assoc]

theorem isRun_longestRun {groups : List Nat} (h : groups.length = 8) : IsRun groups (longestRun groups) := by
  have hfold : ∀ (ks : List Nat) (best : Nat × Nat), (∀ k ∈ ks, k ≤ groups.length) → IsRun groups best →
      IsRun groups (ks.foldl
        (fun best k => if 2 ≤ zerosFrom groups k ∧ best.2 < zerosFrom groups k then (k, zerosFrom groups k) else best)
        best) := by
    intro ks
    induction ks with
    | nil => exact fun _ _ hbest => hbest
    | cons k ks ih =>
      intro best hks hbest
      rw [List.foldl_cons]
      apply ih _ fun j hj => hks j (List.mem_cons_of_mem _ hj)
      split
      · exact isRun_zerosFrom (hks k (List.mem_cons_self ..))
      · exact hbest
  refine hfold _ _ (fun k hk => ?_) ⟨Nat.zero_le _, by simp⟩
  have := List.mem_range.mp hk
  omega

/-! ## Addresses are read back -/

theorem parseIPv6_of_ellipsis {rest : List Char} (h : rest ≠ []) :
    parseIPv6 (':' :: ':' :: rest) = (parseGroups 8 [] (some 0) rest).bind finish := by
  cases rest with
  | nil => exact absurd rfl h
  | cons c rest => rfl

theorem parseIPv6_of_isHex {c : Char} (h : isHex c = true) (rest : List Char) :
    parseIPv6 (c :: rest) = (parseGroups 8 [] none (c :: rest)).bind finish := by
  have hc : c ≠ ':' := by
    rintro rfl
    revert h
    decide
  unfold parseIPv6
  split
  · next heq => exact absurd (List.cons.inj heq).1 hc
  · next heq => exact absurd (List.cons.inj heq).1 hc
  · rfl

theorem joined_eq_nil {gs : List Nat} : joined gs = [] ↔ gs = [] := by
  cases gs with
  | nil => exact iff_of_true rfl rfl
  | cons g gs =>
    obtain ⟨c, cs, h, -⟩ := joined_head g gs
    rw [h]
    exact iff_of_false (List.cons_ne_nil _ _) (List.cons_ne_nil _ _)

theorem parseIPv6_joined {groups : List Nat} (h : groups.length = 8) (hall : ∀ g ∈ groups, g < 65536) :
    parseIPv6 (joined groups) = some (BitVec.ofNat 128 (ofGroups groups)) := by
  obtain ⟨g, gs, rfl⟩ : ∃ g gs, groups = g :: gs := List.exists_cons_of_length_eq_add_one h
  obtain ⟨c, cs, hhead, hc⟩ := joined_head g gs
  rw [hhead, parseIPv6_of_isHex hc, ← hhead,
    parseGroups_joined none (g :: gs) 8 [] (List.cons_ne_nil _ _) hall (by omega)]
  simp [finish, expand, h]

/-- The zeros are put between the groups before and after them. -/
theorem finish_ellipsis (pre post : List Nat) (h : pre.length + post.length < 8) :
    finish (pre ++ post, some pre.length, []) =
      some (BitVec.ofNat 128 (ofGroups (pre ++ List.replicate (8 - (pre.length + post.length)) 0 ++ post))) := by
  simp [finish, expand, h]

theorem parseIPv6_ellipsis {pre post : List Nat} (h : pre.length + post.length < 8) (hpre : ∀ g ∈ pre, g < 65536)
    (hpost : ∀ g ∈ post, g < 65536) :
    parseIPv6 (joined pre ++ [':', ':'] ++ joined post) =
      some (BitVec.ofNat 128 (ofGroups (pre ++ List.replicate (8 - (pre.length + post.length)) 0 ++ post))) := by
  cases hcase : pre with
  | nil =>
    subst hcase
    cases hcase' : post with
    | nil => rfl
    | cons g gs =>
      have hne : joined post ≠ [] := fun he => by
        rw [joined_eq_nil, hcase'] at he
        cases he
      have hparse := parseGroups_joined (some 0) post 8 [] (by rw [hcase']; exact List.cons_ne_nil _ _) hpost (by omega)
      rw [← hcase']
      change parseIPv6 (':' :: ':' :: joined post) = _
      rw [parseIPv6_of_ellipsis hne, hparse]
      exact finish_ellipsis [] post h
  | cons g gs =>
    obtain ⟨c, cs, hhead, hc⟩ := joined_head g gs
    rw [← hcase] at hhead ⊢
    have hne : pre ≠ [] := by
      rw [hcase]
      exact List.cons_ne_nil _ _
    have hparse := parseGroups_joined_ellipsis (joined post) pre 8 [] hne hpre (by omega)
    rw [List.append_assoc]
    change parseIPv6 (joined pre ++ ':' :: ':' :: joined post) = _
    rw [hhead, List.cons_append, parseIPv6_of_isHex hc, ← List.cons_append, ← hhead, hparse, List.nil_append,
      List.length_nil, Nat.zero_add]
    split
    · next hnil =>
      have hpost := joined_eq_nil.mp hnil
      subst hpost
      have := finish_ellipsis pre [] h
      rwa [List.append_nil] at this
    · next hne' =>
      rw [parseGroups_joined _ post _ pre (fun he => hne' (joined_eq_nil.mpr he)) hpost (by omega)]
      exact finish_ellipsis pre post h

/-- **The groups of an address are read back from its text.** -/
theorem parseIPv6_v6Text {groups : List Nat} (h : groups.length = 8) (hall : ∀ g ∈ groups, g < 65536) :
    parseIPv6 (v6Text groups) = some (BitVec.ofNat 128 (ofGroups groups)) := by
  obtain ⟨hbound, hzeros⟩ := isRun_longestRun h
  unfold v6Text
  dsimp only
  generalize longestRun groups = run at hbound hzeros
  split
  · exact parseIPv6_joined h hall
  · next hlen =>
    have hpre : (groups.take run.1).length = run.1 := by
      rw [List.length_take]
      omega
    have hpost : (groups.drop (run.1 + run.2)).length = 8 - (run.1 + run.2) := by
      rw [List.length_drop, h]
    have hgap : 8 - ((groups.take run.1).length + (groups.drop (run.1 + run.2)).length) = run.2 := by omega
    rw [parseIPv6_ellipsis (by omega) (fun g hg => hall g (List.mem_of_mem_take hg))
      (fun g hg => hall g (List.mem_of_mem_drop hg)), hgap, ← hzeros]

theorem mem_intercalate {sep c : Char} : ∀ {parts : List (List Char)}, c ∈ [sep].intercalate parts →
    c = sep ∨ ∃ part ∈ parts, c ∈ part := by
  intro parts
  induction parts with
  | nil =>
    intro h
    cases h
  | cons part parts ih =>
    intro h
    cases parts with
    | nil => exact .inr ⟨part, List.mem_singleton_self _, by simpa [List.intercalate] using h⟩
    | cons part' parts =>
      rw [List.intercalate_cons_cons, List.mem_append, List.mem_append, List.mem_singleton] at h
      obtain (h | h) | h := h
      · exact .inr ⟨part, List.mem_cons_self .., h⟩
      · exact .inl h
      · exact (ih h).imp_right fun ⟨p, hp, hc⟩ => ⟨p, List.mem_cons_of_mem _ hp, hc⟩

/-- The characters of an IPv6 address. -/
theorem mem_joined {c : Char} {gs : List Nat} (h : c ∈ joined gs) : isHex c = true ∨ c = ':' := by
  obtain h | ⟨part, hpart, hc⟩ := mem_intercalate h
  · exact .inr h
  · obtain ⟨g, -, rfl⟩ := List.mem_map.mp hpart
    exact .inl (isHex_of_mem_toDigits hc)

theorem mem_v6Text {c : Char} {gs : List Nat} (h : c ∈ v6Text gs) : isHex c = true ∨ c = ':' := by
  revert h
  unfold v6Text
  dsimp only
  split
  · exact mem_joined
  · intro h
    simp only [List.mem_append, List.mem_cons, List.not_mem_nil, or_false] at h
    obtain (h | h | h) | h := h
    · exact mem_joined h
    · exact .inr h
    · exact .inr h
    · exact mem_joined h

theorem colon_mem_v6Text {gs : List Nat} (h : gs.length = 8) : ':' ∈ v6Text gs := by
  unfold v6Text
  dsimp only
  split
  · obtain ⟨g, gs, rfl⟩ : ∃ g l, gs = g :: l := List.exists_cons_of_length_eq_add_one h
    obtain ⟨g', gs, rfl⟩ : ∃ g' l, gs = g' :: l := List.exists_cons_of_length_eq_add_one (Nat.succ.inj h)
    rw [joined_cons]
    simp
  · simp

theorem length_toGroups (ip : IP) : (toGroups ip).length = 8 := by
  simp [toGroups]

theorem lt_of_mem_toGroups {ip : IP} {g : Nat} (h : g ∈ toGroups ip) : g < 65536 := by
  obtain ⟨k, -, rfl⟩ := List.mem_map.mp h
  exact Nat.mod_lt _ (by decide)

theorem ofGroups_append_singleton (groups : List Nat) (g : Nat) :
    ofGroups (groups ++ [g]) = ofGroups groups * 65536 + g := by
  unfold ofGroups
  rw [List.foldl_append, List.foldl_cons, List.foldl_nil]

/-- The groups of a number, the highest first, make up its low digits. -/
theorem ofGroups_map_range (k : Nat) : ∀ n : Nat,
    ofGroups ((List.range k).map fun j => n / 65536 ^ (k - 1 - j) % 65536) = n % 65536 ^ k := by
  induction k with
  | zero => exact fun n => (Nat.mod_one n).symm
  | succ k ih =>
    intro n
    have hfront : ((List.range k).map fun j => n / 65536 ^ (k + 1 - 1 - j) % 65536) =
        (List.range k).map fun j => n / 65536 / 65536 ^ (k - 1 - j) % 65536 := by
      refine List.map_congr_left fun j hj => ?_
      have hlt := List.mem_range.mp hj
      rw [Nat.div_div_eq_div_mul, ← pow_succ', show k + 1 - 1 - j = k - 1 - j + 1 by omega]
    rw [List.range_succ, List.map_append, hfront, List.map_singleton, ofGroups_append_singleton, ih (n / 65536),
      show k + 1 - 1 - k = 0 by omega, pow_zero, Nat.div_one, pow_succ', Nat.mod_mul]
    omega

theorem ofGroups_toGroups (ip : IP) : ofGroups (toGroups ip) = ip.toNat :=
  (ofGroups_map_range 8 ip.toNat).trans (Nat.mod_eq_of_lt ip.isLt)

/-- **An IPv6 address is read back from its text.** -/
theorem parseAddr_ipString {ip : IP} (h : is4 ip = false) : parseAddr (ipString ip) = some ⟨ip, 128, []⟩ := by
  have htext : ipString ip = v6Text (toGroups ip) := by
    unfold ipString
    rw [h, if_neg Bool.false_ne_true]
  have hother : ∀ c, isHex c = true ∨ c = ':' → c ≠ '.' ∧ c ≠ '%' := by
    rintro c (hc | rfl)
    · constructor <;> (rintro rfl; revert hc; decide)
    · decide
  have hfirst : (ipString ip).find? (fun c => c = '.' ∨ c = ':' ∨ c = '%') = some ':' := by
    rw [htext]
    obtain ⟨c, hc⟩ := Option.isSome_iff_exists.mp
      (List.find?_isSome.mpr ⟨':', colon_mem_v6Text (length_toGroups ip), by decide⟩ :
        ((v6Text (toGroups ip)).find? (fun c => c = '.' ∨ c = ':' ∨ c = '%')).isSome)
    have hsat := List.find?_some hc
    have hne := hother c (mem_v6Text (List.mem_of_find?_eq_some hc))
    simp only [decide_eq_true_eq] at hsat
    obtain hdot | rfl | hpercent := hsat
    · exact absurd hdot hne.1
    · exact hc
    · exact absurd hpercent hne.2
  have hzone : (ipString ip).dropWhile (· ≠ '%') = [] := by
    rw [htext]
    apply List.dropWhile_eq_nil_iff.mpr
    intro c hc
    simpa using (hother c (mem_v6Text hc)).2
  have hgroups : parseIPv6 (ipString ip) = some ip := by
    rw [htext, parseIPv6_v6Text (length_toGroups ip) (fun g hg => lt_of_mem_toGroups hg), ofGroups_toGroups,
      BitVec.ofNat_toNat, BitVec.setWidth_eq]
  unfold parseAddr
  rw [hfirst]
  simp only [hzone, hgroups, Option.map_some]

/-- A text is cut at the first of its separators. -/
theorem takeWhile_append_sep {sep : Char} {a : List Char} (h : sep ∉ a) (b : List Char) :
    (a ++ sep :: b).takeWhile (· ≠ sep) = a ∧ (a ++ sep :: b).dropWhile (· ≠ sep) = sep :: b := by
  have hall : ∀ c ∈ a, decide (c ≠ sep) = true := fun c hc => decide_eq_true fun e => h (e ▸ hc)
  rw [List.takeWhile_append_of_pos hall, List.dropWhile_append_of_pos hall, List.takeWhile_cons_of_neg (by simp),
    List.dropWhile_cons_of_neg (by simp), List.append_nil]
  exact ⟨rfl, rfl⟩

/-- The network that an address and a mask denote. -/
theorem parseCIDR_append {s digits : List Char} (hs : '/' ∉ s) {a : Addr} (ha : parseAddr s = some a)
    (hzone : a.zone = []) {n : Nat} (hn : dtoi digits = some n) (hle : n ≤ a.bitLen) :
    parseCIDR (s ++ '/' :: digits) = some (a.ip, ⟨mask a.ip (128 - a.bitLen + n), n, a.bitLen⟩) := by
  have hcut := takeWhile_append_sep hs digits
  have hcond : ¬ (a.zone ≠ [] ∨ a.bitLen < n) := by
    rintro (hz | hlt)
    · exact hz hzone
    · omega
  unfold parseCIDR
  rw [hcut.1, hcut.2]
  simp only [ha, hn, Option.bind_eq_bind, Option.bind_some, if_neg hcond]

theorem mem_v4Text {c : Char} {ip : IP} (h : c ∈ v4Text ip) : c.isDigit = true ∨ c = '.' := by
  obtain h | ⟨part, hpart, hc⟩ := mem_intercalate h
  · exact .inr h
  · obtain ⟨k, -, rfl⟩ := List.mem_map.mp hpart
    exact .inl (Nat.isDigit_of_mem_toDigits (by decide) (by decide) hc)

theorem isHex_lt {c : Char} (h : isHex c = true) : c.toNat < 128 := by
  have hle : ∀ d : Char, c ≤ d → d.toNat < 128 → c.toNat < 128 := fun d hc hd => Nat.lt_of_le_of_lt hc hd
  unfold isHex hexVal? at h
  split at h
  · next hc => exact hle _ hc.2 (by decide)
  · split at h
    · next hc => exact hle _ hc.2 (by decide)
    · split at h
      · next hc => exact hle _ hc.2 (by decide)
      · cases h

/-- The characters of an address. -/
theorem mem_ipString {c : Char} {ip : IP} (h : c ∈ ipString ip) :
    isHex c = true ∨ c = ':' ∨ c.isDigit = true ∨ c = '.' := by
  unfold ipString at h
  split at h
  · exact .inr (.inr (mem_v4Text h))
  · exact (mem_v6Text h).imp_right .inl

theorem ipString_ne_nil (ip : IP) : ipString ip ≠ [] := by
  unfold ipString
  split
  · simp [v4Text, List.intercalate, List.range_succ]
  · exact List.ne_nil_of_mem (colon_mem_v6Text (length_toGroups ip))

/-! ## Ports are taken off again -/

theorem splitHostPort_joinHostPort {host port : List Char} (hhost : '[' ∉ host ∧ ']' ∉ host)
    (hport : ':' ∉ port ∧ '[' ∉ port ∧ ']' ∉ port) : splitHostPort (joinHostPort host port) = some (host, port) := by
  have hrev : ':' ∉ port.reverse := by simpa using hport.1
  unfold joinHostPort
  split
  · next hcolon =>
    have hs : ('[' :: host ++ [']', ':'] ++ port).reverse = port.reverse ++ ':' :: (']' :: host.reverse ++ ['[']) := by
      simp
    have hcut := takeWhile_append_sep hrev (']' :: host.reverse ++ ['['])
    have hinner := takeWhile_append_sep hhost.2 (':' :: port)
    unfold splitHostPort
    rw [hs, hcut.1, hcut.2]
    simp only [List.reverse_reverse, List.cons_append, List.append_assoc, List.nil_append, hinner.1, hinner.2]
    simp [hhost.1, hport.2.1, hport.2.2]
  · next hcolon =>
    have hs : (host ++ ':' :: port).reverse = port.reverse ++ ':' :: host.reverse := by simp
    have hcut := takeWhile_append_sep hrev host.reverse
    unfold splitHostPort
    rw [hs, hcut.1, hcut.2]
    have hhead : ∀ inner, host ++ ':' :: port ≠ '[' :: inner := by
      intro inner he
      cases host with
      | nil => exact absurd (List.cons.inj he).1 (by decide)
      | cons c host =>
        obtain rfl : c = '[' := (List.cons.inj he).1
        exact hhost.1 (List.mem_cons_self ..)
    dsimp only
    split
    · next inner he => exact absurd he (hhead inner)
    · simp [hcolon, hhost.1, hhost.2, hport.2.1, hport.2.2]

end IpAddr
