import Mathlib.Data.Bool.AllAny
import Mathlib.Data.List.Basic
import Mathlib.Tactic.IntervalCases

/-!
# Base64

* `char`, `value?` : the character of a sextet and the sextet of a character;
* `encode`, `decode` : three bytes to four characters and back; `pad` chooses between the padded and
  the raw form, and `decode` skips line breaks;
* `decode_encode`, `length_le_encode` : the round trip, and no encoding is shorter than its bytes;
* `toNat_lt_of_decode` : only ASCII is decoded;
* `encodeUrl`, `decodeUrl` : the raw form with the alphabet for URLs;
* `chars`, `bytes` : a text of bytes, and the bytes of a text; the encodings are such texts.
-/

namespace Base64

def alphabet : List Char :=
  "ABCDEFGHIJKLMNOPQRSTUVWXYZabcdefghijklmnopqrstuvwxyz0123456789+/".toList

/-- The character of a sextet. -/
def char (v : Nat) : Char := alphabet.getD v 'A'

/-- The sextet of a character. -/
def value? (c : Char) : Option Nat := alphabet.findIdx? (· == c)

theorem value?_char : ∀ v < 64, value? (char v) = some v := by
  decide +kernel

theorem char_ne : ∀ v < 64, char v ≠ '=' ∧ char v ≠ '\n' ∧ char v ≠ '\r' := by
  decide +kernel

/-! ## Quanta -/

def encode (pad : Bool) : List UInt8 → List Char
  | a :: b :: c :: rest =>
    let n := a.toNat * 65536 + b.toNat * 256 + c.toNat
    char (n / 262144) :: char (n / 4096 % 64) :: char (n / 64 % 64) :: char (n % 64) :: encode pad rest
  | [a, b] =>
    let n := a.toNat * 65536 + b.toNat * 256
    char (n / 262144) :: char (n / 4096 % 64) :: char (n / 64 % 64) :: if pad then ['='] else []
  | [a] =>
    let n := a.toNat * 65536
    char (n / 262144) :: char (n / 4096 % 64) :: if pad then ['=', '='] else []
  | [] => []

/-- The byte of two characters. -/
def one (c₁ c₂ : Char) : Option (List UInt8) := do
  let n := (← value? c₁) * 262144 + (← value? c₂) * 4096
  return [.ofNat (n / 65536)]

/-- The bytes of three characters. -/
def two (c₁ c₂ c₃ : Char) : Option (List UInt8) := do
  let n := (← value? c₁) * 262144 + (← value? c₂) * 4096 + (← value? c₃) * 64
  return [.ofNat (n / 65536), .ofNat (n / 256)]

/-- The bytes of a full quantum. -/
def three (c₁ c₂ c₃ c₄ : Char) : Option (List UInt8) := do
  let n := (← value? c₁) * 262144 + (← value? c₂) * 4096 + (← value? c₃) * 64 + (← value? c₄)
  return [.ofNat (n / 65536), .ofNat (n / 256), .ofNat n]

def decodeQuanta (pad : Bool) : List Char → Option (List UInt8)
  | c₁ :: c₂ :: c₃ :: c₄ :: rest =>
    if pad && c₄ == '=' then
      -- a padded quantum is the last one
      if rest ≠ [] then none else if c₃ = '=' then one c₁ c₂ else two c₁ c₂ c₃
    else do return (← three c₁ c₂ c₃ c₄) ++ (← decodeQuanta pad rest)
  | [c₁, c₂, c₃] => if pad then none else two c₁ c₂ c₃
  | [c₁, c₂] => if pad then none else one c₁ c₂
  | [_] => none
  | [] => some []

def decode (pad : Bool) (s : List Char) : Option (List UInt8) :=
  decodeQuanta pad (s.filter fun c => c ≠ '\n' ∧ c ≠ '\r')

/-! ## The round trip -/

theorem ofNat_eq {a : UInt8} {n : Nat} (h : n % 256 = a.toNat) : UInt8.ofNat n = a := by
  apply UInt8.toNat_inj.mp
  rw [UInt8.toNat_ofNat']
  exact h

theorem one_char (a : UInt8) :
    one (char (a.toNat * 65536 / 262144)) (char (a.toNat * 65536 / 4096 % 64)) = some [a] := by
  have ha := a.toNat_lt
  unfold one
  rw [value?_char _ (by omega), value?_char _ (by omega)]
  have h : UInt8.ofNat ((a.toNat * 65536 / 262144 * 262144 + a.toNat * 65536 / 4096 % 64 * 4096) /
      65536) = a := ofNat_eq (by omega)
  simp [h]

theorem two_char (a b : UInt8) (n : Nat) (hn : n = a.toNat * 65536 + b.toNat * 256) :
    two (char (n / 262144)) (char (n / 4096 % 64)) (char (n / 64 % 64)) = some [a, b] := by
  have ha := a.toNat_lt
  have hb := b.toNat_lt
  unfold two
  rw [value?_char _ (by omega), value?_char _ (by omega), value?_char _ (by omega)]
  have hsum : n / 262144 * 262144 + n / 4096 % 64 * 4096 + n / 64 % 64 * 64 = n := by omega
  have h₁ : UInt8.ofNat (n / 65536) = a := ofNat_eq (by omega)
  have h₂ : UInt8.ofNat (n / 256) = b := ofNat_eq (by omega)
  simp [hsum, h₁, h₂]

theorem three_char (a b c : UInt8) (n : Nat) (hn : n = a.toNat * 65536 + b.toNat * 256 + c.toNat) :
    three (char (n / 262144)) (char (n / 4096 % 64)) (char (n / 64 % 64)) (char (n % 64)) =
      some [a, b, c] := by
  have ha := a.toNat_lt
  have hb := b.toNat_lt
  have hc := c.toNat_lt
  unfold three
  rw [value?_char _ (by omega), value?_char _ (by omega), value?_char _ (by omega),
    value?_char _ (by omega)]
  have hsum : n / 262144 * 262144 + n / 4096 % 64 * 4096 + n / 64 % 64 * 64 + n % 64 = n := by omega
  have h₁ : UInt8.ofNat (n / 65536) = a := ofNat_eq (by omega)
  have h₂ : UInt8.ofNat (n / 256) = b := ofNat_eq (by omega)
  have h₃ : UInt8.ofNat n = c := ofNat_eq (by omega)
  simp only [Option.bind_eq_bind, Option.bind_some, hsum, h₁, h₂, h₃]
  rfl

theorem decodeQuanta_encode (pad : Bool) (bs : List UInt8) :
    decodeQuanta pad (encode pad bs) = some bs := by
  induction bs using encode.induct with
  | case1 a b c rest ih =>
    let n := a.toNat * 65536 + b.toNat * 256 + c.toNat
    have h4 : (char (n % 64) == '=') = false := by
      simpa using (char_ne (n % 64) (Nat.mod_lt _ (by decide))).1
    have h3 : three (char (n / 262144)) (char (n / 4096 % 64)) (char (n / 64 % 64)) (char (n % 64)) =
        some [a, b, c] := three_char a b c n rfl
    unfold encode decodeQuanta
    simp only [show a.toNat * 65536 + b.toNat * 256 + c.toNat = n from rfl, h4, Bool.and_false,
      Bool.false_eq_true, if_false, h3, ih]
    rfl
  | case2 a b =>
    let n := a.toNat * 65536 + b.toNat * 256
    have h3 : (char (n / 64 % 64) = '=') = False :=
      eq_false (char_ne (n / 64 % 64) (Nat.mod_lt _ (by decide))).1
    have h2 : two (char (n / 262144)) (char (n / 4096 % 64)) (char (n / 64 % 64)) = some [a, b] :=
      two_char a b n rfl
    unfold encode
    simp only [show a.toNat * 65536 + b.toNat * 256 = n from rfl]
    cases pad <;> simp [decodeQuanta, h2, h3]
  | case3 a =>
    let n := a.toNat * 65536
    have h1 : one (char (n / 262144)) (char (n / 4096 % 64)) = some [a] := one_char a
    unfold encode
    simp only [show a.toNat * 65536 = n from rfl]
    cases pad <;> simp [decodeQuanta, h1]
  | case4 => rfl

theorem encode_no_break (pad : Bool) (bs : List UInt8) :
    ∀ c ∈ encode pad bs, c ≠ '\n' ∧ c ≠ '\r' := by
  have hc : ∀ v < 64, char v ≠ '\n' ∧ char v ≠ '\r' := fun v hv => (char_ne v hv).2
  induction bs using encode.induct with
  | case1 a b c rest ih =>
    have := a.toNat_lt
    have := b.toNat_lt
    have := c.toNat_lt
    unfold encode
    simp only [List.forall_mem_cons]
    exact ⟨hc _ (by omega), hc _ (by omega), hc _ (by omega), hc _ (by omega), ih⟩
  | case2 a b =>
    have := a.toNat_lt
    have := b.toNat_lt
    unfold encode
    simp only [List.forall_mem_cons]
    refine ⟨hc _ (by omega), hc _ (by omega), hc _ (by omega), ?_⟩
    cases pad <;> simp
  | case3 a =>
    have := a.toNat_lt
    unfold encode
    simp only [List.forall_mem_cons]
    refine ⟨hc _ (by omega), hc _ (by omega), ?_⟩
    cases pad <;> simp
  | case4 => simp [encode]

theorem decode_encode (pad : Bool) (bs : List UInt8) : decode pad (encode pad bs) = some bs := by
  have h : (encode pad bs).filter (fun c => c ≠ '\n' ∧ c ≠ '\r') = encode pad bs :=
    List.filter_eq_self.mpr fun c hc => by simpa using encode_no_break pad bs c hc
  unfold decode
  rw [h, decodeQuanta_encode]

theorem length_le_encode (pad : Bool) (bs : List UInt8) : bs.length ≤ (encode pad bs).length := by
  induction bs using encode.induct with
  | case1 a b c rest ih =>
    unfold encode
    simp only [List.length_cons]
    omega
  | case2 a b => simp [encode]
  | case3 a => simp [encode]
  | case4 => simp

/-! ## What is decoded -/

theorem mem_of_value? {c : Char} {v : Nat} (h : value? c = some v) : c ∈ alphabet := by
  obtain ⟨hlt, hc, -⟩ := List.findIdx?_eq_some_iff_getElem.mp h
  exact eq_of_beq hc ▸ List.getElem_mem hlt

theorem mem_of_one {c₁ c₂ : Char} {bs : List UInt8} (h : one c₁ c₂ = some bs) : c₁ ∈ alphabet ∧ c₂ ∈ alphabet := by
  obtain ⟨v₁, h₁, h⟩ := Option.bind_eq_some_iff.mp h
  obtain ⟨v₂, h₂, -⟩ := Option.bind_eq_some_iff.mp h
  exact ⟨mem_of_value? h₁, mem_of_value? h₂⟩

theorem mem_of_two {c₁ c₂ c₃ : Char} {bs : List UInt8} (h : two c₁ c₂ c₃ = some bs) :
    c₁ ∈ alphabet ∧ c₂ ∈ alphabet ∧ c₃ ∈ alphabet := by
  obtain ⟨v₁, h₁, h⟩ := Option.bind_eq_some_iff.mp h
  obtain ⟨v₂, h₂, h⟩ := Option.bind_eq_some_iff.mp h
  obtain ⟨v₃, h₃, -⟩ := Option.bind_eq_some_iff.mp h
  exact ⟨mem_of_value? h₁, mem_of_value? h₂, mem_of_value? h₃⟩

theorem mem_of_three {c₁ c₂ c₃ c₄ : Char} {bs : List UInt8} (h : three c₁ c₂ c₃ c₄ = some bs) :
    c₁ ∈ alphabet ∧ c₂ ∈ alphabet ∧ c₃ ∈ alphabet ∧ c₄ ∈ alphabet := by
  obtain ⟨v₁, h₁, h⟩ := Option.bind_eq_some_iff.mp h
  obtain ⟨v₂, h₂, h⟩ := Option.bind_eq_some_iff.mp h
  obtain ⟨v₃, h₃, h⟩ := Option.bind_eq_some_iff.mp h
  obtain ⟨v₄, h₄, -⟩ := Option.bind_eq_some_iff.mp h
  exact ⟨mem_of_value? h₁, mem_of_value? h₂, mem_of_value? h₃, mem_of_value? h₄⟩

theorem mem_of_decodeQuanta (pad : Bool) (s : List Char) {bs : List UInt8} (h : decodeQuanta pad s = some bs) :
    ∀ c ∈ s, c ∈ alphabet ∨ c = '=' := by
  induction s using decodeQuanta.induct pad generalizing bs with
  | case1 c₁ c₂ c₃ c₄ rest hpad hrest =>
    rw [decodeQuanta, if_pos hpad, if_pos hrest] at h
    cases h
  | case2 c₁ c₂ c₄ rest hpad hrest =>
    rw [decodeQuanta, if_pos hpad, if_neg hrest, if_pos rfl] at h
    obtain ⟨h₁, h₂⟩ := mem_of_one h
    obtain ⟨-, rfl⟩ : pad = true ∧ c₄ = '=' := by simpa using hpad
    obtain rfl : rest = [] := not_not.mp hrest
    simp [h₁, h₂]
  | case3 c₁ c₂ c₃ c₄ rest hpad hrest hne =>
    rw [decodeQuanta, if_pos hpad, if_neg hrest, if_neg hne] at h
    obtain ⟨h₁, h₂, h₃⟩ := mem_of_two h
    obtain ⟨-, rfl⟩ : pad = true ∧ c₄ = '=' := by simpa using hpad
    obtain rfl : rest = [] := not_not.mp hrest
    simp [h₁, h₂, h₃]
  | case4 c₁ c₂ c₃ c₄ rest hpad ih =>
    rw [decodeQuanta, if_neg hpad] at h
    obtain ⟨first, hfirst, h⟩ := Option.bind_eq_some_iff.mp h
    obtain ⟨others, hothers, -⟩ := Option.bind_eq_some_iff.mp h
    obtain ⟨h₁, h₂, h₃, h₄⟩ := mem_of_three hfirst
    simpa [h₁, h₂, h₃, h₄] using ih hothers
  | case5 c₁ c₂ c₃ hpad => simp [decodeQuanta, hpad] at h
  | case6 c₁ c₂ c₃ hpad =>
    rw [decodeQuanta, if_neg hpad] at h
    obtain ⟨h₁, h₂, h₃⟩ := mem_of_two h
    simp [h₁, h₂, h₃]
  | case7 c₁ c₂ hpad => simp [decodeQuanta, hpad] at h
  | case8 c₁ c₂ hpad =>
    rw [decodeQuanta, if_neg hpad] at h
    obtain ⟨h₁, h₂⟩ := mem_of_one h
    simp [h₁, h₂]
  | case9 c => cases h
  | case10 => simp

theorem toNat_lt_of_mem_alphabet : ∀ c ∈ alphabet, c.toNat < 128 := List.all_iff_forall_prop.mp (by decide +kernel)

/-- What is decoded is ASCII. -/
theorem toNat_lt_of_decode {pad : Bool} {s : List Char} {bs : List UInt8} (h : decode pad s = some bs) :
    ∀ c ∈ s, c.toNat < 128 := by
  intro c hc
  by_cases hbreak : c ≠ '\n' ∧ c ≠ '\r'
  · have hmem : c ∈ s.filter fun c => c ≠ '\n' ∧ c ≠ '\r' := List.mem_filter.mpr ⟨hc, decide_eq_true hbreak⟩
    rcases mem_of_decodeQuanta pad _ h c hmem with halpha | rfl
    · exact toNat_lt_of_mem_alphabet c halpha
    · decide
  · rcases Decidable.not_and_iff_or_not.mp hbreak with hline | hreturn
    · rw [not_not.mp hline]
      decide
    · rw [not_not.mp hreturn]
      decide

/-! ## The alphabet for URLs -/

def toUrl (c : Char) : Char := if c = '+' then '-' else if c = '/' then '_' else c

def ofUrl (c : Char) : Char := if c = '-' then '+' else if c = '_' then '/' else c

def encodeUrl (bs : List UInt8) : List Char := (encode false bs).map toUrl

def decodeUrl (s : List Char) : Option (List UInt8) :=
  if '+' ∈ s ∨ '/' ∈ s then none else decode false (s.map ofUrl)

theorem char_mem (v : Nat) : char v ∈ alphabet := by
  unfold char
  rw [List.getD_eq_getElem?_getD]
  cases h : alphabet[v]? with
  | none => decide
  | some c => exact List.mem_of_getElem? h

theorem mem_of_mem_encode (pad : Bool) (bs : List UInt8) :
    ∀ c ∈ encode pad bs, c ∈ alphabet ∨ pad = true ∧ c = '=' := by
  induction bs using encode.induct with
  | case1 a b c rest ih =>
    unfold encode
    simp only [List.forall_mem_cons]
    exact ⟨.inl (char_mem _), .inl (char_mem _), .inl (char_mem _), .inl (char_mem _), ih⟩
  | case2 a b =>
    unfold encode
    cases pad <;> simp [char_mem]
  | case3 a =>
    unfold encode
    cases pad <;> simp [char_mem]
  | case4 => simp [encode]

theorem mem_of_mem_encode_raw (bs : List UInt8) : ∀ c ∈ encode false bs, c ∈ alphabet := by
  intro c hc
  simpa using mem_of_mem_encode false bs c hc

theorem notMem_alphabet : '-' ∉ alphabet ∧ '_' ∉ alphabet ∧ '.' ∉ alphabet := by
  decide +kernel

theorem ofUrl_toUrl : ∀ c ∈ alphabet, ofUrl (toUrl c) = c := by
  intro c hc
  obtain ⟨hdash, hline, -⟩ := notMem_alphabet
  have hd : c ≠ '-' := fun h => hdash (h ▸ hc)
  have hl : c ≠ '_' := fun h => hline (h ▸ hc)
  unfold toUrl
  split
  · next h => rw [h]; rfl
  · split
    · next h => rw [h]; rfl
    · rw [ofUrl, if_neg hd, if_neg hl]

theorem toUrl_ne : ∀ c ∈ alphabet, toUrl c ≠ '+' ∧ toUrl c ≠ '/' ∧ toUrl c ≠ '.' := by
  intro c hc
  have hdot : c ≠ '.' := fun h => notMem_alphabet.2.2 (h ▸ hc)
  unfold toUrl
  split
  · decide
  · next hplus =>
    split
    · decide
    · next hslash => exact ⟨hplus, hslash, hdot⟩

theorem forall_mem_encodeUrl (bs : List UInt8) : ∀ c ∈ encodeUrl bs, c ≠ '+' ∧ c ≠ '/' ∧ c ≠ '.' := by
  intro c hc
  obtain ⟨c', hc', rfl⟩ := List.mem_map.mp hc
  exact toUrl_ne c' (mem_of_mem_encode_raw bs c' hc')

theorem toNat_lt_of_decodeUrl {s : List Char} {bs : List UInt8} (h : decodeUrl s = some bs) :
    ∀ c ∈ s, c.toNat < 128 := by
  intro c hc
  unfold decodeUrl at h
  split at h
  · cases h
  · have hlt := toNat_lt_of_decode h (ofUrl c) (List.mem_map_of_mem hc)
    unfold ofUrl at hlt
    split at hlt
    · next he =>
      rw [he]
      decide
    · split at hlt
      · next he =>
        rw [he]
        decide
      · exact hlt

theorem decodeUrl_encodeUrl (bs : List UInt8) : decodeUrl (encodeUrl bs) = some bs := by
  have hplus : '+' ∉ encodeUrl bs := fun h => (forall_mem_encodeUrl bs _ h).1 rfl
  have hslash : '/' ∉ encodeUrl bs := fun h => (forall_mem_encodeUrl bs _ h).2.1 rfl
  have hback : (encodeUrl bs).map ofUrl = encode false bs := by
    rw [encodeUrl, List.map_map]
    exact (List.map_congr_left fun c hc => ofUrl_toUrl c (mem_of_mem_encode_raw bs c hc)).trans (List.map_id _)
  unfold decodeUrl
  rw [if_neg (by simp [hplus, hslash]), hback, decode_encode]

/-! ## Texts as bytes -/

/-- The text whose characters are the bytes. -/
def chars (bs : List UInt8) : List Char := bs.map fun b => Char.ofNat b.toNat

def bytes (s : List Char) : List UInt8 := s.map fun c => UInt8.ofNat c.toNat

theorem chars_bytes {s : List Char} (h : ∀ c ∈ s, c.toNat < 256) : chars (bytes s) = s := by
  rw [chars, bytes, List.map_map]
  refine (List.map_congr_left fun c hc => ?_).trans (List.map_id s)
  have hnat : (UInt8.ofNat c.toNat).toNat = c.toNat := by
    rw [UInt8.toNat_ofNat', Nat.mod_eq_of_lt (h c hc)]
  simp [hnat]

theorem toNat_lt_of_mem_encode (pad : Bool) (bs : List UInt8) : ∀ c ∈ encode pad bs, c.toNat < 256 := by
  intro c hc
  rcases mem_of_mem_encode pad bs c hc with h | ⟨-, rfl⟩
  · exact (toNat_lt_of_mem_alphabet c h).trans (by decide)
  · decide

theorem toNat_lt_of_mem_encodeUrl (bs : List UInt8) : ∀ c ∈ encodeUrl bs, c.toNat < 256 := by
  intro c hc
  obtain ⟨c', hc', rfl⟩ := List.mem_map.mp hc
  have hurl : ∀ c ∈ alphabet, (toUrl c).toNat < 256 := List.all_iff_forall_prop.mp (by decide +kernel)
  exact hurl c' (mem_of_mem_encode_raw bs c' hc')

end Base64
