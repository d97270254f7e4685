import OciHelper.Lib.IpAddr
import OciHelper.Lib.Text

/-!
# The address of a client

* `isTrustedProxy`, `buildTrustedProxies`, `extractIP` : the address that a request is counted under;
* `through` : proxies that each append the address of their peer; `arriving` : what the server gets;
* `claimed` : the address that the headers of the client name first; `Honest` : if any, it is its own;
* `extractIP_arriving_iff` : just then the server sees the client.

Texts are lists of characters.
-/

namespace OciHelper.Auth.Address
open IpAddr Text

/-- The lines of the two headers in their order. -/
structure Headers where
  forwardedFor : List (List Char) := []
  realIP : List (List Char) := []

structure Request where
  remoteAddr : List Char
  headers : Headers

/-- The value of a header is its first line. -/
def get (lines : List (List Char)) : List Char := lines.headD []

def isTrustedProxy (trustedProxyNets : List IPNet) (addr : List Char) : Bool :=
  let host := ((splitHostPort addr).map Prod.fst).getD addr
  match parseIP host with
  | none => false
  | some ip =>
    if trustedProxyNets ≠ [] then trustedProxyNets.any fun n => n.contains ip else isLoopback ip || isPrivate ip

def buildTrustedProxies (specs : List (List Char)) : List IPNet :=
  specs.filterMap fun s =>
    let s := trimSpace s
    if s = [] then none
    else
      let s := if '/' ∈ s then s else if ':' ∈ s then s ++ "/128".toList else s ++ "/32".toList
      (parseCIDR s).map Prod.snd

def extractIP (trustedProxyNets : List IPNet) (r : Request) : List Char :=
  if get r.headers.forwardedFor ≠ [] ∧ isTrustedProxy trustedProxyNets r.remoteAddr then
    trimSpace (((get r.headers.forwardedFor).splitOn ',').headD [])
  else if get r.headers.realIP ≠ [] ∧ isTrustedProxy trustedProxyNets r.remoteAddr then
    trimSpace (get r.headers.realIP)
  else
    match splitHostPort r.remoteAddr with
    | none => r.remoteAddr
    | some (host, _) => host

/-! ## Proxies -/

/-- One end of a connection. -/
structure Peer where
  ip : IP
  port : Nat

def Peer.host (p : Peer) : List Char := ipString p.ip

def Peer.remoteAddr (p : Peer) : List Char := joinHostPort p.host (decimal p.port)

/-- A proxy makes one line of the lines and the address of its peer. -/
def appendPeer (lines : List (List Char)) (p : Peer) : List (List Char) := [", ".toList.intercalate (lines ++ [p.host])]

/-- The last end of the connection that a request comes in by, and the lines it has then. -/
def through : Peer → List (List Char) → List Peer → Peer × List (List Char)
  | p, lines, [] => (p, lines)
  | p, lines, q :: proxies => through q (appendPeer lines p) proxies

/-- The request of a client, by way of proxies, the one next to the client first. -/
def arriving (client : Peer) (proxies : List Peer) (sent : Headers) : Request :=
  let r := through client sent.forwardedFor proxies
  { remoteAddr := r.1.remoteAddr, headers := { sent with forwardedFor := r.2 } }

/-- The first address in a line. -/
def firstOf (line : List Char) : List Char := trimSpace (line.takeWhile (· ≠ ','))

/-- The address that the client says is its own. Without a proxy the other header counts as well. -/
def claimed (proxies : List Peer) (sent : Headers) : Option (List Char) :=
  if proxies ≠ [] then sent.forwardedFor.head?.map firstOf
  else if get sent.forwardedFor ≠ [] then some (firstOf (get sent.forwardedFor))
  else if get sent.realIP ≠ [] then some (trimSpace (get sent.realIP))
  else none

/-- The client names no other address than its own, or comes from where it is not believed. -/
def Honest (trustedProxyNets : List IPNet) (client : Peer) (proxies : List Peer) (sent : Headers) : Prop :=
  (proxies = [] → isTrustedProxy trustedProxyNets client.remoteAddr = true) →
    ∀ t ∈ claimed proxies sent, t = client.host

/-! ## Texts of addresses -/

/-- An address has no white space, comma or bracket. -/
theorem plain_of_mem_host {p : Peer} {c : Char} (h : c ∈ p.host) : isSpace c = false ∧ c ≠ ',' ∧ c ≠ '[' ∧ c ≠ ']' := by
  have hall : ∀ n < 128, (isHex (Char.ofNat n) = true ∨ Char.ofNat n = ':' ∨ (Char.ofNat n).isDigit = true ∨
      Char.ofNat n = '.') → isSpace (Char.ofNat n) = false ∧ Char.ofNat n ≠ ',' ∧ Char.ofNat n ≠ '[' ∧
        Char.ofNat n ≠ ']' := by
    decide +kernel
  have hchar := mem_ipString h
  have hlt : c.toNat < 128 := by
    obtain h | rfl | h | rfl := hchar
    · exact isHex_lt h
    · decide
    · exact Nat.lt_of_le_of_lt (Char.isDigit_iff_toNat.mp h).2 (by decide)
    · decide
  have := hall c.toNat hlt
  rw [Char.ofNat_toNat] at this
  exact this hchar

theorem firstOf_host (p : Peer) : firstOf p.host = p.host := by
  have htake : p.host.takeWhile (· ≠ ',') = p.host := by
    apply List.takeWhile_eq_self_iff.mpr
    intro c hc
    exact decide_eq_true (plain_of_mem_host hc).2.1
  unfold firstOf
  rw [htake]
  exact trimSpace_eq_self fun c hc => (plain_of_mem_host hc).1

/-- The host of the other end of a connection. -/
theorem splitHostPort_remoteAddr (p : Peer) : splitHostPort p.remoteAddr = some (p.host, decimal p.port) := by
  have hport : ∀ c : Char, c.isDigit = false → c ≠ '-' → c ∉ decimal p.port := fun c hc hm => notMem_decimal hc hm _
  exact splitHostPort_joinHostPort
    ⟨fun h => (plain_of_mem_host h).2.2.1 rfl, fun h => (plain_of_mem_host h).2.2.2 rfl⟩
    ⟨hport _ (by decide) (by decide), hport _ (by decide) (by decide), hport _ (by decide) (by decide)⟩

/-! ## The first address of a line -/

theorem headD_splitOn (sep : Char) (s : List Char) : (s.splitOn sep).headD [] = s.takeWhile (· ≠ sep) := by
  induction s with
  | nil => rfl
  | cons c s ih =>
    rw [List.splitOn_cons_eq_if_modifyHead]
    by_cases hc : c = sep
    · simp [hc]
    · obtain ⟨first, rest, he⟩ := List.exists_cons_of_ne_nil (List.splitOn_ne_nil sep s)
      rw [he] at ih ⊢
      simp only [beq_iff_eq, hc, if_false, List.modifyHead_cons, List.headD_cons] at ih ⊢
      rw [ih, List.takeWhile_cons_of_pos (by simpa using hc)]

/-- What is appended to a line does not change its first address. -/
theorem takeWhile_append_comma (a b : List Char) :
    (a ++ ',' :: b).takeWhile (· ≠ ',') = a.takeWhile (· ≠ ',') := by
  induction a with
  | nil => rfl
  | cons c a ih =>
    by_cases hc : c = ','
    · simp [hc]
    · have hcons : ∀ l : List Char, (c :: l).takeWhile (· ≠ ',') = c :: l.takeWhile (· ≠ ',') := fun l =>
        List.takeWhile_cons_of_pos (by simpa using hc)
      rw [List.cons_append, hcons, hcons, ih]

/-- The line of a proxy begins with the first line it got, if there was one. -/
theorem firstOf_appendPeer (lines : List (List Char)) (p : Peer) :
    firstOf (get (appendPeer lines p)) = firstOf (lines.headD p.host) ∧ get (appendPeer lines p) ≠ [] := by
  cases lines with
  | nil =>
    have hline : get (appendPeer [] p) = p.host := by simp [get, appendPeer]
    rw [hline]
    exact ⟨rfl, ipString_ne_nil _⟩
  | cons line lines =>
    obtain ⟨text, htext⟩ : ∃ text, get (appendPeer (line :: lines) p) = line ++ ',' :: text := by
      refine ⟨' ' :: ", ".toList.intercalate (lines ++ [p.host]), ?_⟩
      change ", ".toList.intercalate (line :: (lines ++ [p.host])) = _
      rw [List.intercalate_cons_of_ne_nil (by simp)]
      simp
    rw [htext]
    constructor
    · unfold firstOf
      rw [takeWhile_append_comma]
      rfl
    · simp

theorem through_spec : ∀ (proxies : List Peer) (p : Peer) (lines : List (List Char)), proxies ≠ [] →
    (through p lines proxies).1 ∈ proxies ∧ get (through p lines proxies).2 ≠ [] ∧
      firstOf (get (through p lines proxies).2) = firstOf (lines.headD p.host) := by
  intro proxies
  induction proxies with
  | nil => exact fun _ _ h => absurd rfl h
  | cons q proxies ih =>
    intro p lines _
    obtain ⟨hfirst, hne⟩ := firstOf_appendPeer lines p
    cases proxies with
    | nil => exact ⟨List.mem_singleton_self _, hne, hfirst⟩
    | cons q' proxies =>
      obtain ⟨hmem, hne', hfirst'⟩ := ih q (appendPeer lines p) (List.cons_ne_nil _ _)
      exact ⟨List.mem_cons_of_mem _ hmem, hne', hfirst'.trans hfirst⟩

/-! ## What the server sees -/

section
variable {trustedProxyNets : List IPNet} (client : Peer) {proxies : List Peer} (sent : Headers)
  (htrusted : ∀ p ∈ proxies, isTrustedProxy trustedProxyNets p.remoteAddr = true)
include htrusted

/-- The server takes the first address that the client names, if it believes it. -/
theorem extractIP_arriving :
    extractIP trustedProxyNets (arriving client proxies sent) =
      if proxies = [] ∧ isTrustedProxy trustedProxyNets client.remoteAddr = false then client.host
      else (claimed proxies sent).getD client.host := by
  unfold extractIP
  rw [headD_splitOn]
  change (if _ then firstOf (get (through client sent.forwardedFor proxies).2) else _) = _
  by_cases hnone : proxies = []
  · subst hnone
    cases hbelieved : isTrustedProxy trustedProxyNets client.remoteAddr with
    | false => simp [arriving, through, hbelieved, splitHostPort_remoteAddr]
    | true =>
      by_cases hforwarded : get sent.forwardedFor = []
      · by_cases hreal : get sent.realIP = [] <;>
          simp [arriving, through, hbelieved, splitHostPort_remoteAddr, claimed, hforwarded, hreal]
      · simp [arriving, through, hbelieved, claimed, hforwarded]
  · obtain ⟨hmem, hne, hfirst⟩ := through_spec proxies client sent.forwardedFor hnone
    have hlast := htrusted _ hmem
    rw [if_pos ⟨hne, hlast⟩, if_neg (fun h => hnone h.1), hfirst]
    unfold claimed
    rw [if_pos hnone]
    cases sent.forwardedFor with
    | nil => exact firstOf_host client
    | cons line lines => rfl

theorem extractIP_eq_host_iff :
    extractIP trustedProxyNets (arriving client proxies sent) = client.host ↔
      Honest trustedProxyNets client proxies sent := by
  rw [extractIP_arriving client sent htrusted]
  unfold Honest
  split
  · next hdirect =>
    refine iff_of_true rfl fun hbelieved => ?_
    rw [hbelieved hdirect.1] at hdirect
    cases hdirect.2
  · next hbelieved =>
    have hb : proxies = [] → isTrustedProxy trustedProxyNets client.remoteAddr = true := by
      intro hnone
      by_contra hnot
      exact hbelieved ⟨hnone, Bool.eq_false_iff.mpr hnot⟩
    cases claimed proxies sent with
    | none => exact iff_of_true rfl fun _ t ht => by cases ht
    | some t =>
      constructor
      · rintro h - t' ht'
        cases ht'
        exact h
      · exact fun h => h hb t rfl

end

/-- **When the server sees the client.** Behind proxies it trusts, the address is the one that the first proxy saw just
when the client names no other; then two requests from one address are counted as one. -/
theorem extractIP_arriving_iff (specs : List (List Char)) (client : Peer) (proxies : List Peer) (sent : Headers)
    (htrusted : ∀ p ∈ proxies, isTrustedProxy (buildTrustedProxies specs) p.remoteAddr = true) :
    (extractIP (buildTrustedProxies specs) (arriving client proxies sent) = client.host ↔
      Honest (buildTrustedProxies specs) client proxies sent) ∧
    ∀ (other : Peer) (proxies' : List Peer) (sent' : Headers),
      (∀ p ∈ proxies', isTrustedProxy (buildTrustedProxies specs) p.remoteAddr = true) → other.ip = client.ip →
      Honest (buildTrustedProxies specs) client proxies sent →
      Honest (buildTrustedProxies specs) other proxies' sent' →
        extractIP (buildTrustedProxies specs) (arriving client proxies sent) =
          extractIP (buildTrustedProxies specs) (arriving other proxies' sent') := by
  refine ⟨extractIP_eq_host_iff client sent htrusted, fun other proxies' sent' htrusted' hip h h' => ?_⟩
  have hfirst := (extractIP_eq_host_iff client sent htrusted).mpr h
  have hsecond := (extractIP_eq_host_iff other sent' htrusted').mpr h'
  rw [hfirst, hsecond]
  unfold Peer.host
  rw [hip]

/-- 203.0.113.9 -/
def exampleClient : Peer := ⟨ofV4 0xcb007109, 40000⟩

/-- 127.0.0.1 -/
def exampleProxy : Peer := ⟨ofV4 0x7f000001, 50000⟩

/-- Behind one proxy, the client names 198.51.100.1. -/
theorem named_address_is_taken :
    isTrustedProxy (buildTrustedProxies ["127.0.0.0/8".toList]) exampleProxy.remoteAddr = true ∧
      extractIP (buildTrustedProxies ["127.0.0.0/8".toList])
          (arriving exampleClient [exampleProxy] { forwardedFor := ["198.51.100.1".toList] }) =
        "198.51.100.1".toList ∧
      exampleClient.host = "203.0.113.9".toList := by
  decide +kernel

/-- Without a header of its own, the client is seen. -/
theorem silent_client_is_seen :
    extractIP (buildTrustedProxies ["127.0.0.0/8".toList]) (arriving exampleClient [exampleProxy] {}) =
      exampleClient.host := by
  have htrusted : ∀ p ∈ [exampleProxy],
      isTrustedProxy (buildTrustedProxies ["127.0.0.0/8".toList]) p.remoteAddr = true := by
    decide +kernel
  exact (extractIP_arriving_iff _ exampleClient [exampleProxy] {} htrusted).1.mpr fun _ t ht => by cases ht

end OciHelper.Auth.Address
