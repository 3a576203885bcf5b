import S7Comm.Client.FollowUp
import S7Comm.Theorems.Header
import S7Comm.Theorems.ParserBounds

/-! What the client makes of the sections that the header of an answer declares: `sendReceive` returns both, and the
    follow-up of a probe looks at the data section. -/

namespace S7Comm
open Go

theorem szlAnswer_declared {pdu rest : Bytes} {header : S7Header} (hparse : parseS7Header pdu = .ok (header, rest))
    (hclass : header.errorClass = 0) (hcode : header.errorCode = 0) :
    szlAnswer pdu header.pduRef =
      if header.paramLength.toNat + header.dataLength.toNat < 65536 then szlData (declaredSections header pdu).2
      else .panic := by
  obtain ⟨-, hfits⟩ := parseS7Header_rest hparse
  unfold szlAnswer
  rw [hparse]
  dsimp only
  rw [if_neg (by simp), if_neg (by simp [hclass, hcode]), if_neg (Nat.not_lt.mpr hfits), dataSection_eq hfits,
    declaredSections_eq hparse]
  split <;> rfl

theorem szlData_ne_panic (data : Bytes) : szlData data ≠ .panic := by
  unfold szlData
  split
  · rename_i h
    exact absurd h (parseSZLResponse_ne_panic data)
  · nofun
  · nofun

theorem szlAnswer_eq_panic {pdu : Bytes} {ref : UInt16} :
    szlAnswer pdu ref = .panic ↔ ∃ header rest, parseS7Header pdu = .ok (header, rest) ∧ header.pduRef = ref ∧
      header.errorClass = 0 ∧ header.errorCode = 0 ∧
      65536 ≤ header.paramLength.toNat + header.dataLength.toNat := by
  constructor
  · intro h
    rcases parseS7Header_spec pdu with ⟨e, he⟩ | ⟨header, rest, hparse, -⟩
    · rw [szlAnswer, he] at h
      cases h
    by_cases href : header.pduRef = ref
    swap
    · rw [szlAnswer, hparse] at h
      dsimp only at h
      rw [if_pos href] at h
      cases h
    by_cases herr : header.errorClass ≠ 0 ∨ header.errorCode ≠ 0
    · rw [szlAnswer, hparse] at h
      dsimp only at h
      rw [if_neg (not_not.mpr href), if_pos herr] at h
      cases h
    have herr' : header.errorClass = 0 ∧ header.errorCode = 0 := by simpa using herr
    subst href
    rw [szlAnswer_declared hparse herr'.1 herr'.2] at h
    split at h
    · exact absurd h (szlData_ne_panic _)
    · exact ⟨header, rest, hparse, rfl, herr'.1, herr'.2, by omega⟩
  · rintro ⟨header, rest, hparse, rfl, hclass, hcode, hlong⟩
    rw [szlAnswer_declared hparse hclass hcode, if_neg (by omega)]

section FollowUp
variable {γ σ : Type} {env : Env γ σ} {conn : γ} {ref szlID : UInt16} {w w₁ w₂ : σ} {pdu : Bytes}

theorem trySZL_read (hwrite : env.writeTSDU conn (encodeSZLRequest ref szlID 0) w = (none, w₁))
    (hread : env.readTSDU conn w₁ = (.ok pdu, w₂)) : trySZL env conn ref szlID w = (szlAnswer pdu ref, w₂) := by
  unfold trySZL
  rw [Eff.bind_ok (Eff.attempt_ok (worldErr_ok hwrite))]
  dsimp only
  rw [Eff.bind_ok (Eff.attempt_ok (worldVal_ok hread))]
  rfl

/-- The connection delivers an answer with long sections to the request for an SZL. -/
def LongSZL (env : Env γ σ) (conn : γ) (ref szlID : UInt16) (w : σ) : Prop :=
  ∃ w₁ w₂ pdu, env.writeTSDU conn (encodeSZLRequest ref szlID 0) w = (none, w₁) ∧
    env.readTSDU conn w₁ = (.ok pdu, w₂) ∧ szlAnswer pdu ref = .panic

theorem trySZL_eq_panic : (trySZL env conn ref szlID w).1 = .panic ↔ LongSZL env conn ref szlID w := by
  constructor
  · intro h
    rcases hwrite : env.writeTSDU conn (encodeSZLRequest ref szlID 0) w with ⟨_ | err, w₁⟩
    swap
    · rw [trySZL, Eff.bind_ok (Eff.attempt_fail (worldErr_fail hwrite))] at h
      cases h
    rcases hread : env.readTSDU conn w₁ with ⟨err | pdu, w₂⟩
    · rw [trySZL, Eff.bind_ok (Eff.attempt_ok (worldErr_ok hwrite))] at h
      dsimp only at h
      rw [Eff.bind_ok (Eff.attempt_fail (worldVal_fail hread))] at h
      cases h
    · rw [trySZL_read hwrite hread] at h
      exact ⟨w₁, w₂, pdu, hwrite, hread, h⟩
  · rintro ⟨w₁, w₂, pdu, hwrite, hread, hpanic⟩
    rw [trySZL_read hwrite hread, hpanic]

/-- The SZLs that a follow-up asks for, one after the other until an answer is good. -/
def followUpSZLs : ConfirmationKind → List UInt16
  | .szl => [szlModuleID]
  | .cpuState => [szlCPUState]
  | .any => [szlModuleID, szlCPUState, szlProtectionInfo]
  | .none | .other _ => []

/-- One of the requests that a follow-up sends gets an answer with long sections. -/
def LongConfirmation (env : Env γ σ) (conn : γ) (ref : UInt16) : List UInt16 → σ → Prop
  | [], _ => False
  | szlID :: rest, w => LongSZL env conn ref szlID w ∨
      ∃ msg w', trySZL env conn ref szlID w = (.ok (false, msg), w') ∧ LongConfirmation env conn ref rest w'

/-- One request of a follow-up: it ends when the answer is good, and goes on when it is not. -/
theorem trySZL_bind_eq_panic {α : Type} (good : α) (bad : String → Eff σ GoError α) :
    ((trySZL env conn ref szlID >>= fun r => if r.1 then pure good else bad r.2) w).1 = .panic ↔
      LongSZL env conn ref szlID w ∨
        ∃ msg w', trySZL env conn ref szlID w = (.ok (false, msg), w') ∧ (bad msg w').1 = .panic := by
  rw [Eff.bind_eq_panic, trySZL_eq_panic]
  refine or_congr_right ⟨?_, ?_⟩
  · rintro ⟨⟨_ | _, msg⟩, w', htry, hbad⟩
    · exact ⟨msg, w', htry, hbad⟩
    · cases hbad
  · rintro ⟨msg, w', htry, hbad⟩
    exact ⟨(false, msg), w', htry, hbad⟩

/-- A follow-up panics just when it gets an answer with long sections. -/
theorem runFollowUp_eq_panic {strategy : ConfirmationKind} :
    (runFollowUp env conn ref strategy w).1 = .panic ↔ LongConfirmation env conn ref (followUpSZLs strategy) w := by
  have hlast (good : Bool × ConfirmationKind × String) (szlID : UInt16) (w : σ) :
      ((trySZL env conn ref szlID >>= fun r => if r.1 then pure good else pure (false, .none, r.2)) w).1 = .panic ↔
        LongConfirmation env conn ref [szlID] w := by
    refine (trySZL_bind_eq_panic good fun msg => pure (false, .none, msg)).trans (or_congr_right ?_)
    exact exists₂_congr fun _ _ => and_congr_right fun _ => iff_of_false nofun id
  cases strategy with
  | none => exact iff_of_false nofun id
  | other text => exact iff_of_false nofun id
  | szl => exact hlast (true, .szl, "") szlModuleID w
  | cpuState => exact hlast (true, .cpuState, "") szlCPUState w
  | any =>
    refine (trySZL_bind_eq_panic (true, ConfirmationKind.szl, "") fun _ => _).trans (or_congr_right ?_)
    refine exists₂_congr fun _ w' => and_congr_right fun _ => ?_
    refine (trySZL_bind_eq_panic (true, ConfirmationKind.cpuState, "") fun _ => _).trans (or_congr_right ?_)
    exact exists₂_congr fun _ w'' => and_congr_right fun _ => hlast (true, .any, "") szlProtectionInfo w''

end FollowUp

/-- An exchange that gets an accepted PDU as its answer, with the reference of the request and without a header error,
    ends with the sections that the header declares just when their lengths add up to a 16-bit number. -/
theorem exchange_declared_iff {pdu rest : Bytes} {header : S7Header} (hparse : parseS7Header pdu = .ok (header, rest))
    (hclass : header.errorClass = 0) (hcode : header.errorCode = 0) :
    ((declaredSections header pdu).1.length = header.paramLength.toNat ∧
        (declaredSections header pdu).2.length = header.dataLength.toNat) ∧
      (∀ {σ : Type} (net : Net σ) (req : Bytes) (ref : UInt16) (c : Client) (w w₁ w₂ w₃ : σ),
        ref = 0 ∨ header.pduRef = ref → c.connected = true → ¬(c.pduSize > 0 ∧ req.length > c.pduSize) →
        net.writeTSDU req w = (none, w₁) → net.ctxErr w₁ = (none, w₂) → net.readTSDU w₂ = (.ok pdu, w₃) →
        (sendReceive net req ref (c, w) = (.ok (declaredSections header pdu), (c, w₃)) ↔
          header.paramLength.toNat + header.dataLength.toNat < 65536)) ∧
      ∀ {γ σ : Type} (env : Env γ σ) (conn : γ) (szlID : UInt16) (w w₁ w₂ : σ),
        env.writeTSDU conn (encodeSZLRequest header.pduRef szlID 0) w = (none, w₁) →
        env.readTSDU conn w₁ = (.ok pdu, w₂) →
        (trySZL env conn header.pduRef szlID w = (szlData (declaredSections header pdu).2, w₂) ↔
          header.paramLength.toNat + header.dataLength.toNat < 65536) := by
  refine ⟨length_declaredSections hparse, ?_, ?_⟩
  · intro σ net req ref c w w₁ w₂ w₃ href hconn hfit hwrite hctx hread
    rw [sendReceive_read hconn hfit hwrite hctx hread, responseSections_declared hparse href hclass hcode]
    split
    · rename_i hshort
      exact iff_of_true rfl hshort
    · rename_i hlong
      exact iff_of_false nofun hlong
  · intro γ σ env conn szlID w w₁ w₂ hwrite hread
    rw [trySZL_read hwrite hread, szlAnswer_declared hparse hclass hcode]
    split
    · rename_i hshort
      exact iff_of_true rfl hshort
    · rename_i hlong
      refine iff_of_false (fun h => ?_) hlong
      exact szlData_ne_panic _ (congrArg Prod.fst h).symm

/-- A connection on which every request is answered with the same PDU. -/
def answerEnv (pdu : Bytes) : Env Unit Unit where
  ctxErr w := (none, w)
  wait w := (none, w)
  dialCOTP _ _ w := (.ok (), w)
  writeTSDU _ _ w := (none, w)
  readTSDU _ w := (.ok pdu, w)
  close _ w := (none, w)

/-- An Ack-Data answer with a section of two bytes and one of three. -/
theorem exchange_declared_two_three :
    sendReceive ((answerEnv (ackData 2 0 0 [0x04, 0x01] [0xFF, 0x04, 0x00])).net (some ())) [] 2
          (⟨true, 240, 2, 0⟩, ()) =
        (.ok ([0x04, 0x01], [0xFF, 0x04, 0x00]), (⟨true, 240, 2, 0⟩, ())) ∧
      trySZL (answerEnv (ackData 2 0 0 [0x04, 0x01] [0xFF, 0x04, 0x00])) () 2 szlModuleID () =
        (szlData [0xFF, 0x04, 0x00], ()) := by
  have hparse : parseS7Header (ackData 2 0 0 [0x04, 0x01] [0xFF, 0x04, 0x00]) =
      .ok (⟨0x32, rosctrAckData, 0, 2, 2, 3, 0, 0⟩, [0x04, 0x01, 0xFF, 0x04, 0x00]) := by
    decide
  obtain ⟨-, hsend, htry⟩ := exchange_declared_iff hparse rfl rfl
  have hshort : (2 : UInt16).toNat + (3 : UInt16).toNat < 65536 := by
    decide
  exact ⟨(hsend _ [] 2 ⟨true, 240, 2, 0⟩ () () () () (.inr rfl) rfl (by decide) rfl rfl rfl).mpr hshort,
    (htry _ () szlModuleID () () () rfl rfl).mpr hshort⟩

/-- An answer with two sections of 32768 bytes. -/
def longPDU : Bytes := message rosctrUserdata 2 (List.replicate 32768 0) (List.replicate 32768 0)

theorem parseS7Header_longPDU :
    ∃ rest, parseS7Header longPDU = .ok (⟨0x32, rosctrUserdata, 0, 2, 32768, 32768, 0, 0⟩, rest) := by
  have hlen : (List.replicate 32768 0 : Bytes).length = 32768 := List.length_replicate
  have hparse : parseS7Header longPDU = .ok (⟨0x32, rosctrUserdata, 0, 2, UInt16.ofNat _, UInt16.ofNat _, 0, 0⟩, _) :=
    parseS7Header_message (by decide) (by omega) (by omega)
  rw [hlen] at hparse
  exact ⟨_, hparse⟩

/-- The lengths of the sections add up to 65536, which is 0 as a 16-bit sum: the client panics on an answer that its
    header parser accepts. -/
theorem exchange_long_sections_panics :
    (∃ rest, parseS7Header longPDU = .ok (⟨0x32, rosctrUserdata, 0, 2, 32768, 32768, 0, 0⟩, rest)) ∧
      (sendReceive ((answerEnv longPDU).net (some ())) [] 2 (⟨true, 240, 2, 0⟩, ())).1 = .panic ∧
      (runFollowUp (answerEnv longPDU) () 2 .szl ()).1 = .panic := by
  obtain ⟨rest, hparse⟩ := parseS7Header_longPDU
  have hsections : responseSections longPDU 2 = .panic := by
    rw [responseSections_declared hparse (.inr rfl) rfl rfl]
    rfl
  have hanswer : szlAnswer longPDU 2 = .panic :=
    szlAnswer_eq_panic.mpr ⟨_, rest, hparse, rfl, rfl, rfl, by decide⟩
  refine ⟨⟨rest, hparse⟩, ?_, runFollowUp_eq_panic.mpr (.inl ⟨(), (), longPDU, rfl, rfl, hanswer⟩)⟩
  have hread : ((answerEnv longPDU).net (some ())).readTSDU () = (.ok longPDU, ()) := rfl
  rw [sendReceive_read rfl (by decide) rfl rfl hread, hsections]

end S7Comm
