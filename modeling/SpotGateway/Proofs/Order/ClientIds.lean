import SpotGateway.Config
import SpotGateway.Proofs.Outcome
import SpotGateway.Proofs.Text.Digits

/-!
# Ids made for orders

Three rules meet in the id that is made for an order: with what heads a session can work, how an id
is cut to length, and what ids the exchange takes.  Heads are measured in bytes, ids are cut by
characters, and the exchange's rule looks at both.  They fit together: an id is taken, is spelled by
its head, the letter of the side and the nonce, and keeps eight digits of the nonce, exactly if a
session can work with the head.

* `Uuid`, `Uuid.digits` — random numbers and their hexadecimal text;
* `ClientId.utf8ByteSize_of_allowed` — allowed characters take one byte each;
* `ClientId.check_eq_ok_iff`, `Config.isIdHead_iff`, `Config.validate_eq_ok_iff` — the checks;
* `ClientId.toList_make` — how an id is cut;
* `ClientId.Proper`, `ClientId.proper_make` — ids as they should be;
* `Config.validate_eq_ok_iff_proper` — the settings under which they are so.
-/

set_option autoImplicit false

namespace SpotGateway

/-- A random number of 128 bits. -/
structure Uuid where
  bits : BitVec 128
  deriving DecidableEq, Repr

/-- The number as 32 hexadecimal digits. -/
def Uuid.digits (nonce : Uuid) : String := Text.paddedHexadecimal 32 nonce.bits.toNat

theorem Uuid.digits_spec (nonce : Uuid) :
    (∀ c ∈ nonce.digits.toList, Text.isHexadecimal c = true) ∧ nonce.digits.toList.length = 32 := by
  obtain ⟨cs, hcs, hhex, hlength⟩ :=
    Text.paddedHexadecimal_spec (by decide : 0 < 32) nonce.bits.isLt
  rw [digits, hcs, String.toList_ofList]
  exact ⟨hhex, hlength⟩

namespace ClientId

/-! ## Allowed characters -/

theorem isAllowed_of_isHexadecimal {c : Char} (h : Text.isHexadecimal c = true) :
    isAllowed c = true := by
  simp only [Text.isHexadecimal, Bool.or_eq_true, Bool.and_eq_true, decide_eq_true_eq] at h
  simp only [isAllowed, Text.isAlphanumeric, Bool.or_eq_true, Bool.and_eq_true, decide_eq_true_eq]
  rcases h with hdigit | ⟨hlow, hhigh⟩
  · rw [Char.isDigit, Bool.and_eq_true, decide_eq_true_eq, decide_eq_true_eq] at hdigit
    exact Or.inl (Or.inl (Or.inl hdigit))
  · have hletter : c ≤ 'z' := Char.le_trans hhigh (by decide)
    exact Or.inl (Or.inl (Or.inr ⟨hlow, hletter⟩))

theorem isAllowed_tag (side : Side) : isAllowed side.tag = true := by
  cases side <;> decide

theorem utf8Size_of_isAllowed {c : Char} (h : isAllowed c = true) : c.utf8Size = 1 := by
  simp only [isAllowed, Text.isAlphanumeric, Bool.or_eq_true, Bool.and_eq_true, decide_eq_true_eq,
    beq_iff_eq] at h
  rw [Char.utf8Size_eq_one_iff]
  rcases h with ((⟨_, h⟩ | ⟨_, h⟩) | ⟨_, h⟩) | rfl
  · exact UInt32.le_trans h (by decide)
  · exact UInt32.le_trans h (by decide)
  · exact UInt32.le_trans h (by decide)
  · decide

theorem utf8ByteSize_ofList {cs : List Char} (h : ∀ c ∈ cs, isAllowed c = true) :
    (String.ofList cs).utf8ByteSize = cs.length := by
  induction cs with
  | nil => rfl
  | cons c rest ih =>
    have hc := utf8Size_of_isAllowed (h c List.mem_cons_self)
    rw [String.ofList_cons, String.utf8ByteSize_append, String.utf8ByteSize_singleton, hc,
      ih fun d hd => h d (List.mem_cons_of_mem _ hd), List.length_cons, Nat.add_comm]

/-- Text of allowed characters has as many bytes as characters. -/
theorem utf8ByteSize_of_allowed {s : String} (h : ∀ c ∈ s.toList, isAllowed c = true) :
    s.utf8ByteSize = s.toList.length := by
  rw [← utf8ByteSize_ofList h, String.ofList_toList]

/-! ## The checks -/

/-- Counted in characters, the exchange's rule is the same: an id has at least one and at most as many
as the exchange takes, and all are allowed. -/
theorem check_eq_ok_iff {clientId : String} : check clientId = .ok () ↔
    (∀ c ∈ clientId.toList, isAllowed c = true) ∧
      0 < clientId.toList.length ∧ clientId.toList.length ≤ Exchange.maxIdLength := by
  unfold check
  by_cases hallowed : ∀ c ∈ clientId.toList, isAllowed c = true
  · rw [utf8ByteSize_of_allowed hallowed, if_pos (List.all_eq_true.mpr hallowed)]
    split
    · rename_i hlength
      simp only [reduceCtorEq, false_iff]
      omega
    · rename_i hlength
      exact ⟨fun _ => ⟨hallowed, by omega, by omega⟩, fun _ => rfl⟩
  · rw [if_neg fun hall => hallowed (List.all_eq_true.mp hall)]
    simp only [hallowed, false_and, iff_false]
    split <;> exact nofun

end ClientId

namespace Config

/-- Counted in characters, a head leaves room for the letter of the side and eight digits. -/
theorem isIdHead_iff {head : String} : isIdHead head = true ↔
    (∀ c ∈ head.toList, ClientId.isAllowed c = true) ∧
      head.toList.length + idTailLength ≤ Exchange.maxIdLength := by
  rw [isIdHead, Bool.and_eq_true, decide_eq_true_eq, List.all_eq_true, and_comm]
  refine and_congr_right fun hallowed => ?_
  rw [ClientId.utf8ByteSize_of_allowed hallowed]

theorem validate_eq_ok_iff {c : Config} : c.validate = .ok () ↔
    Text.trim c.restUrl.toList ≠ [] ∧ c.timeoutMillis ≠ 0 ∧ isIdHead c.idHead = true := by
  unfold validate
  split
  · rename_i hurl
    simp [hurl]
  · rename_i hurl
    split
    · rename_i htimeout
      simp [htimeout]
    · rename_i htimeout
      split
      · rename_i hhead
        exact ⟨fun _ => ⟨hurl, htimeout, hhead⟩, fun _ => rfl⟩
      · rename_i hhead
        simp [hhead]

end Config

namespace ClientId

/-! ## Ids that are made -/

/-- A head that is shorter than an id may be is kept whole, and so is the letter of the side. -/
theorem toList_make {head : String} (h : head.toList.length < Exchange.maxIdLength) (side : Side)
    (nonce : String) : (make head side nonce).toList = head.toList ++
      side.tag :: nonce.toList.take (Exchange.maxIdLength - 1 - head.toList.length) := by
  obtain ⟨room, hroom⟩ := Nat.exists_eq_add_of_lt h
  have hrest : Exchange.maxIdLength - head.toList.length = room + 1 := by omega
  rw [make, String.toList_ofList, List.take_append, List.take_of_length_le (Nat.le_of_lt h), hrest,
    List.take_succ_cons]
  congr 3
  omega

/-- What follows the letter of the side are the digits that the nonce starts with, as many as there is
room for. -/
theorem exists_kept {head : String} (h : head.toList.length < Exchange.maxIdLength) (side : Side)
    (nonce : Uuid) : ∃ kept, kept <+: nonce.digits.toList ∧
      kept.length = Exchange.maxIdLength - 1 - head.toList.length ∧
      (make head side nonce.digits).toList = head.toList ++ side.tag :: kept := by
  refine ⟨_, List.take_prefix _ _, ?_, toList_make h side nonce.digits⟩
  rw [List.length_take, nonce.digits_spec.2, Exchange.maxIdLength]
  omega

/-- The exchange takes the id, which is the head, the letter of the side, and at least eight of the
digits that the nonce starts with. -/
structure Proper (head : String) (side : Side) (nonce : Uuid) (clientId : String) : Prop where
  taken : check clientId = .ok ()
  spelled : ∃ kept, clientId.toList = head.toList ++ side.tag :: kept ∧
    kept <+: nonce.digits.toList ∧ 8 ≤ kept.length ∧ ∀ c ∈ kept, Text.isHexadecimal c = true

variable {head : String} {side : Side} {nonce : Uuid}

/-- Under a head that a session can work with, ids are as they should be. -/
theorem proper_make (h : Config.isIdHead head = true) (side : Side) (nonce : Uuid) :
    Proper head side nonce (make head side nonce.digits) := by
  obtain ⟨hallowed, hroom⟩ := Config.isIdHead_iff.mp h
  rw [Config.idTailLength] at hroom
  have hshort : head.toList.length < Exchange.maxIdLength := by omega
  obtain ⟨kept, hstarts, hlength, hmake⟩ := exists_kept hshort side nonce
  have hhex : ∀ c ∈ kept, Text.isHexadecimal c = true :=
    fun c hc => nonce.digits_spec.1 c (hstarts.mem hc)
  refine ⟨check_eq_ok_iff.mpr ?_, kept, hmake, hstarts, by omega, hhex⟩
  rw [hmake, List.length_append, List.length_cons]
  refine ⟨?_, by omega, by omega⟩
  simp only [List.forall_mem_append, List.forall_mem_cons]
  exact ⟨hallowed, isAllowed_tag side, fun c hc => isAllowed_of_isHexadecimal (hhex c hc)⟩

/-- One id that is as it should be shows that a session can work with its head. -/
theorem Proper.isIdHead {clientId : String} (h : Proper head side nonce clientId) :
    Config.isIdHead head = true := by
  obtain ⟨hallowed, _, hlength⟩ := check_eq_ok_iff.mp h.taken
  obtain ⟨kept, hspelled, _, henough, _⟩ := h.spelled
  rw [hspelled, List.forall_mem_append] at hallowed
  rw [hspelled, List.length_append, List.length_cons] at hlength
  refine Config.isIdHead_iff.mpr ⟨hallowed.1, ?_⟩
  rw [Config.idTailLength]
  omega

end ClientId

/-- **The rules for ids fit together.**  Settings whose address is not blank and whose calls have some
time are accepted exactly if the ids that are made under their head are all as they should be. -/
theorem Config.validate_eq_ok_iff_proper {c : Config} : c.validate = .ok () ↔
    Text.trim c.restUrl.toList ≠ [] ∧ c.timeoutMillis ≠ 0 ∧ ∀ side (nonce : Uuid),
      ClientId.Proper c.idHead side nonce (ClientId.make c.idHead side nonce.digits) := by
  rw [validate_eq_ok_iff]
  refine and_congr_right fun _ => and_congr_right fun _ => ?_
  exact ⟨ClientId.proper_make, fun h => (h .buy ⟨0⟩).isIdHead⟩

/-- A head of 23 characters leaves eight digits of the nonce, and the digits fill up with zeros. -/
example : ClientId.make "gateway-07-spot-desk-eu" .sell
    (Uuid.mk 0x0f8fad5bd9cb469fa16570867728950e).digits = "gateway-07-spot-desk-euS0f8fad5b" := by
  decide +kernel

end SpotGateway
