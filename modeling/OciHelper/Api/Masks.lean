import Mathlib.Data.List.Infix

/-!
# Masked secrets

* `maskSecret` : what the API shows of a secret; `hasMarker` : whether a text is such a mask;
* `JsonText` : how a client reads the bytes of a text in a JSON reply;
* `hasMarker_read_maskSecret` : a client that sends a mask back sends the marker.
-/

namespace OciHelper.Api

/-- The bytes of a text. -/
def bytes (s : String) : List UInt8 := s.toList.flatMap String.utf8EncodeChar

/-- `***` -/
def stars : List UInt8 := [42, 42, 42]

/-- The two bytes at an end may be part of a character. -/
def maskSecret (v : String) : List UInt8 :=
  if v = "" then []
  else if (bytes v).length ≤ 8 then stars
  else (bytes v).take 2 ++ stars ++ (bytes v).drop ((bytes v).length - 2)

/-- `strings.Contains(s, "***")` -/
def hasMarker (s : String) : Bool := decide ("***".toList <:+: s.toList)

/-- The `/api/config` keys whose values are masked. -/
def configSecretKeys : List String :=
  ["telegram_token", "cloudflare_token", "siliconflow_key", "google_client_secret", "telegram_webhook_secret"]

/-- Bytes that are no character are replaced; ASCII stays. -/
structure JsonText where
  read : List UInt8 → String
  read_nil : read [] = ""
  hasMarker_read : ∀ a b, hasMarker (read (a ++ stars ++ b)) = true

theorem bytes_injective : Function.Injective bytes := by
  intro s s' h
  have hencode : ∀ s : String, s.toByteArray = (bytes s).toByteArray := by
    intro s
    conv =>
      lhs
      rw [← String.ofList_toList (s := s), String.toByteArray_ofList]
    rfl
  exact String.toByteArray_inj.mp (by rw [hencode, hencode, h])

theorem maskSecret_eq_nil_iff (v : String) : maskSecret v = [] ↔ v = "" := by
  unfold maskSecret
  split
  · next h => simp [h]
  · next h =>
    split <;> simp [h, stars]

theorem hasMarker_read_maskSecret (json : JsonText) {v : String} (h : v ≠ "") :
    hasMarker (json.read (maskSecret v)) = true := by
  unfold maskSecret
  rw [if_neg h]
  split
  · exact json.hasMarker_read [] []
  · exact json.hasMarker_read _ _

/-- A reader for ASCII texts. -/
def JsonText.ascii : JsonText where
  read bs := String.ofList (bs.map fun b => if b < 128 then Char.ofNat b.toNat else '\uFFFD')
  read_nil := rfl
  hasMarker_read a b := by
    simp only [hasMarker, String.toList_ofList, List.map_append]
    exact decide_eq_true (List.infix_append _ _ _)

end OciHelper.Api
