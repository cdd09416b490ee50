import TrustDB.App.Submission

/-!
When slots and registry identities stand for one triple only. Both join their parts with a NUL,
and nothing keeps a NUL out of a tenant or client id.
-/

namespace TrustDB.App

open Model Keystore Idempotency

def nul : Char := '\x00'

def NulFree (value : String) : Prop := nul ∉ value.toList

instance (value : String) : Decidable (NulFree value) := inferInstanceAs (Decidable (nul ∉ value.toList))

theorem toList_ne_nil {value} : value.toList ≠ [] ↔ value ≠ "" := by
  rw [ne_eq, ne_eq, String.toList_eq_nil_iff]

theorem idempotencyKey_toList {tenantID clientID key} (filled : key ≠ "") :
    (idempotencyKey tenantID clientID key).toList =
      Joined.join nul tenantID.toList clientID.toList key.toList := by
  rw [idempotencyKey, if_neg filled]
  simp [Joined.join, nul, String.toList_append]

theorem identity_toList (tenantID clientID keyID : String) :
    (identity tenantID clientID keyID).toList =
      Joined.join nul tenantID.toList clientID.toList keyID.toList := by
  simp [identity, Joined.join, nul, String.toList_append]

theorem slot_unshared_iff {tenantID clientID key} (filled : key ≠ "") : (∀ tenant client other, other ≠ "" →
      idempotencyKey tenant client other = idempotencyKey tenantID clientID key →
        tenant = tenantID ∧ client = clientID ∧ other = key) ↔
      NulFree tenantID ∧ NulFree clientID ∧ nul ∉ key.toList.dropLast := by
  have texts := @Joined.unshared_nonempty_iff _ nul tenantID.toList clientID.toList _ _
    (toList_ne_nil.mpr filled)
  rw [NulFree, NulFree, ← texts]
  constructor
  · intro unshared x y z nonempty same
    have filled' : String.ofList z ≠ "" := toList_ne_nil.mp (by simpa using nonempty)
    obtain ⟨rfl, rfl, rfl⟩ := unshared (.ofList x) (.ofList y) (.ofList z) filled' (by
      apply String.toList_injective
      rw [idempotencyKey_toList filled', idempotencyKey_toList filled]
      simpa using same)
    simp
  · intro unshared tenant client other filled' same
    have lists := congrArg String.toList same
    rw [idempotencyKey_toList filled', idempotencyKey_toList filled] at lists
    obtain ⟨first, second, third⟩ := unshared _ _ _ (toList_ne_nil.mpr filled') lists
    exact ⟨String.toList_injective first, String.toList_injective second, String.toList_injective third⟩

theorem identity_unshared_iff {tenantID clientID keyID} :
    (∀ tenant client other, identity tenant client other = identity tenantID clientID keyID →
        tenant = tenantID ∧ client = clientID ∧ other = keyID) ↔
      NulFree tenantID ∧ NulFree clientID ∧ NulFree keyID := by
  have texts := @Joined.unshared_iff _ nul tenantID.toList clientID.toList keyID.toList _
  rw [NulFree, NulFree, NulFree, ← texts]
  constructor
  · intro unshared x y z _ same
    obtain ⟨rfl, rfl, rfl⟩ := unshared (.ofList x) (.ofList y) (.ofList z) (by
      apply String.toList_injective
      rw [identity_toList, identity_toList]
      simpa using same)
    simp
  · intro unshared tenant client other same
    have lists := congrArg String.toList same
    rw [identity_toList, identity_toList] at lists
    obtain ⟨first, second, third⟩ := unshared _ _ _ trivial lists
    exact ⟨String.toList_injective first, String.toList_injective second, String.toList_injective third⟩

def Subject.Plain : Subject → Prop
  | keyed identity => identity.idempotencyKey ≠ "" ∧ NulFree identity.tenantID ∧ NulFree identity.clientID
  | unkeyed recordID => recordID ≠ "" ∧ NulFree recordID

theorem nul_mem_join (a b c : List Char) : nul ∈ Joined.join nul a b c := by simp [Joined.join]

theorem Subject.slot_injective {first second : Subject} (one : first.Plain) (two : second.Plain)
    (same : first.slot = second.slot) : first = second := by
  have lists := congrArg String.toList same
  cases first with
  | keyed a =>
    rw [slot, idempotencyKey_toList one.1] at lists
    cases second with
    | keyed b =>
      rw [slot, idempotencyKey_toList two.1] at lists
      obtain ⟨tenant, client, key⟩ := Joined.join_injective two.2.1 two.2.2 one.2.1 one.2.2 lists
      cases a
      cases b
      simp_all [String.toList_inj]
    | unkeyed recordID =>
      have inside := nul_mem_join a.tenantID.toList a.clientID.toList a.idempotencyKey.toList
      rw [lists, slot, recordIDKey, if_neg two.1] at inside
      exact absurd inside (by simpa [NulFree, nul, String.toList_append] using two.2)
  | unkeyed recordID =>
    rw [slot, recordIDKey, if_neg one.1] at lists
    cases second with
    | keyed b =>
      rw [slot, idempotencyKey_toList two.1] at lists
      have inside := nul_mem_join b.tenantID.toList b.clientID.toList b.idempotencyKey.toList
      rw [← lists] at inside
      exact absurd inside (by simpa [NulFree, nul, String.toList_append] using one.2)
    | unkeyed other =>
      rw [slot, recordIDKey, if_neg two.1] at lists
      simp_all [String.toList_append, String.toList_inj]

theorem base32Lower_nulFree (data : Bytes) : NulFree (Claim.base32Lower data) := by
  have all : ("abcdefghijklmnopqrstuvwxyz234567".toList.all fun symbol => symbol != nul) = true := by decide +kernel
  have letters : ∀ symbol ∈ "abcdefghijklmnopqrstuvwxyz234567".toList, symbol ≠ nul := by
    intro symbol member
    have one := List.all_eq_true.mp all symbol member
    simpa using one
  intro inside
  simp only [Claim.base32Lower, String.toList_ofList, List.mem_map] at inside
  obtain ⟨value, _, same⟩ := inside
  rw [List.getD_eq_getElem?_getD] at same
  cases found : "abcdefghijklmnopqrstuvwxyz234567".toList[value]? with
  | none =>
    rw [found] at same
    exact absurd same (by decide)
  | some symbol =>
    rw [found] at same
    exact letters symbol (List.mem_of_getElem? found) same

theorem recordID_plain {hashes codec provider claimCBOR sig recordID}
    (derived : Claim.recordIDWithProvider hashes codec provider claimCBOR sig = .ok recordID) :
    (Subject.unkeyed recordID).Plain := by
  simp only [Claim.recordIDWithProvider, Result.bind_eq_ok, Result.return_eq_ok] at derived
  obtain ⟨_, _, _, _, _, _, rfl⟩ := derived
  constructor
  · rw [← toList_ne_nil]
    simp [String.toList_append]
  · have rest := base32Lower_nulFree
    simp only [NulFree, String.toList_append, List.mem_append, not_or]
    exact ⟨by decide, rest _⟩

end TrustDB.App
