import DenyFS.Verified.OuterView

/-! # Headers

A header is encrypted by the one who creates a volume and decrypted by everyone who tries a
password on it.  The record is longer than its ciphertext, so the last eight of its random
bytes come back as zeros, which no field depends on. -/

namespace DenyFS

open Packed BlockProgram

variable {crypto : Crypto}

/-- GCM decryption under the key a header was encrypted with gives the plaintext back. -/
def Crypto.HeaderRoundTrip (crypto : Crypto) : Prop :=
  ∀ key iv plaintext, crypto.gcmDecrypt key iv (crypto.gcmEncrypt key iv plaintext).1
    (crypto.gcmEncrypt key iv plaintext).2 = some plaintext

/-- GCM decryption under `other` fails on everything encrypted under `key`. -/
def Crypto.HeaderRejects (crypto : Crypto) (key other : Bytes 32) : Prop :=
  ∀ iv plaintext, crypto.gcmDecrypt other iv (crypto.gcmEncrypt key iv plaintext).1
    (crypto.gcmEncrypt key iv plaintext).2 = none

/-- A payload without the bytes that the ciphertext has no room for. -/
def HeaderPayload.stored (payload : HeaderPayload) : HeaderPayload :=
  { payload with reserved := clip 3924 payload.reserved }

theorem clip_payload (payload : HeaderPayload) :
    clip 4052 (payloadLayout payload) = payloadLayout payload.stored := by
  unfold payloadLayout
  simp only [Equiv.trans_apply, Equiv.coe_fn_mk]
  change clip (8 + (8 + (8 + (8 + (64 + (32 + 3924)))))) (pair u64 _ _) = _
  rw [clip_pair, clip_pair, clip_pair, clip_pair, clip_pair, clip_pair]
  simp only [Equiv.symm_apply_apply]
  rfl

theorem decryptHeader_encryptHeader (roundTrip : crypto.HeaderRoundTrip) (payload : HeaderPayload)
    (key : Bytes 32) (salt : Bytes 16) (iv : Bytes 12) :
    decryptHeader crypto (encryptHeader crypto payload key salt iv) key = some payload.stored := by
  unfold decryptHeader encryptHeader
  dsimp only
  rw [roundTrip, Option.map_some]
  refine congrArg some ?_
  have same : (fun i : Fin 4060 => if h : i.val < 4052 then
      payloadLayout payload (Fin.castLE (by decide) (⟨i.val, h⟩ : Fin 4052)) else 0) =
      clip 4052 (payloadLayout payload) := by
    funext i
    unfold clip
    by_cases kept : i.val < 4052
    · rw [dif_pos kept, if_pos kept]
      rfl
    · rw [dif_neg kept, if_neg kept]
  rw [same, clip_payload, Equiv.symm_apply_apply]

/-- The password a header was made for opens it. -/
theorem authenticate_newHeader (roundTrip : crypto.HeaderRoundTrip) (random : Randomness)
    (password : List UInt8) (volumeSize : UInt64) :
    authenticate crypto (newHeader crypto random password volumeSize) password =
      some (newPayload random volumeSize).stored := by
  unfold authenticate newHeader
  change Option.filter _ (decryptHeader crypto (encryptHeader crypto _ _ random.salt random.iv)
    (headerKey crypto password random.salt)) = _
  rw [decryptHeader_encryptHeader roundTrip]
  rfl

/-- A password with another key does not. -/
theorem authenticate_other {random : Randomness} {password other : List UInt8}
    (rejects : crypto.HeaderRejects (headerKey crypto password random.salt)
      (headerKey crypto other random.salt)) (volumeSize : UInt64) :
    authenticate crypto (newHeader crypto random password volumeSize) other = none := by
  have failed : decryptHeader crypto (encryptHeader crypto (newPayload random volumeSize)
      (headerKey crypto password random.salt) random.salt random.iv)
        (headerKey crypto other random.salt) = none := by
    unfold decryptHeader encryptHeader
    dsimp only
    rw [rejects]
    rfl
  unfold authenticate newHeader
  change Option.filter _ (decryptHeader crypto (encryptHeader crypto _ _ random.salt random.iv)
    (headerKey crypto other random.salt)) = _
  rw [failed]
  rfl

/-- What a mount takes from a header does not depend on the bytes that were cut off. -/
theorem mountOf_stored (payload : HeaderPayload) (start : UInt64) (isHidden : Bool) :
    mountOf payload.stored start isHidden = mountOf payload start isHidden := rfl

end DenyFS
