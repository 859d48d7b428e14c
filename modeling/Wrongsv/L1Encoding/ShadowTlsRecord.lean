import Wrongsv.Core.Reader

/-!
# ShadowTLS: records with a running tag

After the handshake a ShadowTLS connection carries TLS records with application data
(server/handler/shadowtls.rs:294-303,360-408). In front of the payload are
four bytes of an HMAC that was updated with all payloads and tags before it and with
this payload.

An HMAC is any function of the key and of the bytes that it was updated with. The state
keeps the updates one by one; what comes out depends on them joined together.

`decode_record`: a record is accepted if and only if its tag is the right one for the
state.
-/
namespace Wrongsv.L1.ShadowTls
open List

def tlsHeaderSize : Nat := 5
def alert : UInt8 := 21
def applicationData : UInt8 := 23
def hmacSize : Nat := 4
def tlsHmacHeaderSize : Nat := tlsHeaderSize + hmacSize

/-- The first bytes of a sum. -/
abbrev Tag := { tag : Bytes // tag.length = hmacSize }

/-- HMAC-SHA1, cut to `HMAC_SIZE`. -/
abbrev Mac := Bytes → Bytes → Tag

/-- `HmacSha1` -/
structure Hmac where
  key : Bytes
  updates : List Bytes
  deriving DecidableEq, Repr

namespace Hmac

def update (h : Hmac) (data : Bytes) : Hmac := { h with updates := h.updates ++ [data] }

/-- `state.clone().finalize().into_bytes()[..HMAC_SIZE]` -/
def tag (mac : Mac) (h : Hmac) : Tag := mac h.key h.updates.flatten

end Hmac

/-- The errors of the stream; all but the first one end it. -/
inductive ShadowTlsError where
  | wouldBlock
  | unexpectedEof
  /-- ConnectionAborted: shadowtls peer sent alert -/
  | peerAlert
  /-- InvalidInput: shadowtls record too large -/
  | recordTooLarge
  /-- InvalidData: shadowtls frame too short -/
  | frameTooShort
  /-- InvalidData: unexpected ShadowTLS record type -/
  | recordType (type : UInt8)
  /-- PermissionDenied: shadowtls application data verification failed -/
  | verification
  deriving DecidableEq, Repr

/-- shadowtls.rs:294-303 -/
def extractTlsFrame : Reader ShadowTlsError Bytes := do
  let header ← Reader.readExact .wouldBlock .unexpectedEof tlsHeaderSize
  let body ← Reader.readExact .wouldBlock .unexpectedEof (u16At header 3)
  return header ++ body

/-- shadowtls.rs:360-381 -/
def encodeShadowtlsApplicationData (mac : Mac) (payload : Bytes) (state : Hmac) :
    Except ShadowTlsError Bytes × Hmac :=
  let recordLen := hmacSize + payload.length
  if 65535 < recordLen then (.error .recordTooLarge, state)
  else
    let state := state.update payload
    let hmac := state.tag mac
    (.ok ([applicationData, 3, 3] ++ be16 recordLen ++ hmac.val ++ payload), state.update hmac.val)

/-- shadowtls.rs:383-408 -/
def decodeShadowtlsApplicationData (mac : Mac) (frame : Bytes) (state : Hmac) :
    Except ShadowTlsError Bytes × Hmac :=
  if frame.length < tlsHmacHeaderSize then (.error .frameTooShort, state)
  else if frame.getD 0 0 ≠ applicationData ∨ frame.getD 1 0 ≠ 3 ∨ frame.getD 2 0 ≠ 3 then
    (.error (.recordType (frame.getD 0 0)), state)
  else
    let payload := frame.drop tlsHmacHeaderSize
    let received := (frame.drop tlsHeaderSize).take hmacSize
    let state := state.update payload
    if received ≠ (state.tag mac).val then (.error .verification, state)
    else (.ok payload, state.update received)

/-! ## Records -/

/-- A record with application data; the tag need not be the right one. -/
structure Record where
  payload : Bytes
  tag : Tag
  small : hmacSize + payload.length ≤ 65535
  deriving DecidableEq, Repr

namespace Record

def bytes (r : Record) : Bytes :=
  [applicationData, 3, 3] ++ be16 (hmacSize + r.payload.length) ++ r.tag.val ++ r.payload

/-- The record is the right one for a state. -/
def Genuine (mac : Mac) (h : Hmac) (r : Record) : Prop := r.tag = (h.update r.payload).tag mac

instance (mac : Mac) (h : Hmac) (r : Record) : Decidable (r.Genuine mac h) := inferInstanceAs (Decidable (_ = _))

/-- The state behind a record. -/
def after (h : Hmac) (r : Record) : Hmac := (h.update r.payload).update r.tag.val

end Record

/-- The record for a payload. -/
def recordOf (mac : Mac) (h : Hmac) (payload : Bytes) (small : hmacSize + payload.length ≤ 65535) :
    Record :=
  ⟨payload, (h.update payload).tag mac, small⟩

section
variable {mac : Mac} {h : Hmac} {payload : Bytes} {r : Record}

theorem encode_record (small : hmacSize + payload.length ≤ 65535) :
    encodeShadowtlsApplicationData mac payload h =
      (.ok (recordOf mac h payload small).bytes, (recordOf mac h payload small).after h) := by
  unfold encodeShadowtlsApplicationData
  rw [if_neg (Nat.not_lt.mpr small)]
  rfl

theorem genuine_recordOf (small : hmacSize + payload.length ≤ 65535) :
    (recordOf mac h payload small).Genuine mac h := rfl

theorem length_bytes (r : Record) : r.bytes.length = tlsHmacHeaderSize + r.payload.length := by
  have htag := r.tag.property
  simp only [Record.bytes, length_append, length_cons, length_nil, be16_length, htag,
    tlsHmacHeaderSize, tlsHeaderSize]

/-- **A record is accepted if and only if its tag is the right one.** -/
theorem decode_record (mac : Mac) (h : Hmac) (r : Record) :
    decodeShadowtlsApplicationData mac r.bytes h =
      if r.Genuine mac h then (.ok r.payload, r.after h) else (.error .verification, h.update r.payload) := by
  have htag := r.tag.property
  have hbytes : r.bytes = applicationData :: 3 :: 3 :: UInt8.ofNat ((hmacSize + r.payload.length) / 256) ::
      UInt8.ofNat (hmacSize + r.payload.length) :: (r.tag.val ++ r.payload) := by
    simp [Record.bytes, be16]
  have hlong : ¬ r.bytes.length < tlsHmacHeaderSize := by
    rw [length_bytes]
    omega
  have hpayload : r.bytes.drop tlsHmacHeaderSize = r.payload := by
    show (r.tag.val ++ r.payload).drop 4 = r.payload
    exact drop_left' htag
  have hreceived : (r.bytes.drop tlsHeaderSize).take hmacSize = r.tag.val := by
    exact take_left' htag
  have htype : ¬ (r.bytes.getD 0 0 ≠ applicationData ∨ r.bytes.getD 1 0 ≠ 3 ∨ r.bytes.getD 2 0 ≠ 3) := by
    rintro (h | h | h) <;> exact h rfl
  unfold decodeShadowtlsApplicationData
  rw [if_neg hlong, if_neg htype]
  simp only [hpayload, hreceived]
  by_cases hgenuine : r.Genuine mac h
  · rw [if_pos hgenuine, if_neg (by rw [← hgenuine]; simp)]
    rfl
  · rw [if_neg hgenuine, if_pos fun heq => hgenuine (Subtype.ext heq)]

/-! ## Reading a record -/

theorem exact_extractTlsFrame : Reader.Exact .wouldBlock .unexpectedEof extractTlsFrame :=
  Reader.exact_bind (Reader.exact_readExact _) fun _ =>
    Reader.exact_bind (Reader.exact_readExact _) fun _ => Reader.exact_pure _

/-- **A record is read as a whole.** -/
theorem settles_extractTlsFrame (r : Record) :
    extractTlsFrame.Settles r.bytes (.ok r.bytes) [] := by
  have hlen : hmacSize + r.payload.length < 65536 := Nat.lt_succ_of_le r.small
  have hheader : u16At ([applicationData, 3, 3] ++ be16 (hmacSize + r.payload.length)) 3 =
      (r.tag.val ++ r.payload).length := by
    rw [length_append, r.tag.property]
    exact u16_be16 _ hlen
  have hsplit : r.bytes = ([applicationData, 3, 3] ++ be16 (hmacSize + r.payload.length)) ++
      ((r.tag.val ++ r.payload) ++ []) := by
    simp [Record.bytes]
  have hfirst : (Reader.readExact ShadowTlsError.wouldBlock .unexpectedEof tlsHeaderSize).Settles r.bytes
      (.ok ([applicationData, 3, 3] ++ be16 (hmacSize + r.payload.length))) ((r.tag.val ++ r.payload) ++ []) := by
    rw [hsplit]
    exact Reader.settles_readExact ([applicationData, 3, 3] ++ be16 (hmacSize + r.payload.length)) _
  have hsecond : (Reader.readExact ShadowTlsError.wouldBlock .unexpectedEof
      (u16At ([applicationData, 3, 3] ++ be16 (hmacSize + r.payload.length)) 3)).Settles
      ((r.tag.val ++ r.payload) ++ []) (.ok (r.tag.val ++ r.payload)) [] := by
    rw [hheader]
    exact Reader.settles_readExact _ []
  have hresult : ([applicationData, 3, 3] ++ be16 (hmacSize + r.payload.length)) ++ (r.tag.val ++ r.payload) = r.bytes := by
    rw [hsplit, append_nil]
  have hpure := Reader.settles_pure (ε := ShadowTlsError) r.bytes []
  exact hfirst.bind (hsecond.bind hpure)

theorem advances_extractTlsFrame : extractTlsFrame.Advances :=
  (Reader.advances_readExact _ _ _).bind fun _ =>
    (Reader.advances_readExact _ _ _).bind fun _ => Reader.advances_pure _

theorem readExact_ok {s s' : Schedule} {n : Nat} {bytes : Bytes}
    (hread : Reader.readExact ShadowTlsError.wouldBlock .unexpectedEof n s = (.ok bytes, s')) :
    bytes.length = n ∧ s.bytes = bytes ++ s'.bytes := by
  unfold Reader.readExact at hread
  split at hread
  · rename_i c s'' hdone
    cases hread
    refine ⟨?_, Schedule.bytes_of_readExact_done hdone⟩
    unfold Schedule.readExact at hdone
    grind
  · cases hread
  · cases hread

theorem extractTlsFrame_ok {s s' : Schedule} {frame : Bytes} (hread : extractTlsFrame s = (.ok frame, s')) :
    s.bytes = frame ++ s'.bytes ∧ frame.length = tlsHeaderSize + u16At frame 3 := by
  unfold extractTlsFrame at hread
  rw [Reader.bind_apply] at hread
  rcases hfirst : Reader.readExact ShadowTlsError.wouldBlock .unexpectedEof tlsHeaderSize s with ⟨e | header, s₁⟩
  · rw [hfirst] at hread
    cases hread
  rw [hfirst] at hread
  simp only at hread
  rw [Reader.bind_apply] at hread
  rcases hsecond : Reader.readExact ShadowTlsError.wouldBlock .unexpectedEof (u16At header 3) s₁ with ⟨e | body, s₂⟩
  · rw [hsecond] at hread
    cases hread
  rw [hsecond] at hread
  cases hread
  obtain ⟨hlen, hbytes⟩ := readExact_ok hfirst
  obtain ⟨hlen', hbytes'⟩ := readExact_ok hsecond
  refine ⟨by rw [hbytes, hbytes', append_assoc], ?_⟩
  have hfield : ∀ i < tlsHeaderSize, (header ++ body).getD i 0 = header.getD i 0 := by
    grind
  have hheader : u16At (header ++ body) 3 = u16At header 3 := by
    unfold u16At
    rw [hfield 3 (by decide), hfield 4 (by decide)]
  simp_all

end

end Wrongsv.L1.ShadowTls
