import Mathlib.Data.Finset.Card
import VerticalAI.Contracts.Federation

/-! What the threshold of a root promises: that many distinct keys signed, exactly where no key
signs under two ids or the signatures cannot be misled about it.
-/

namespace VerticalAI.Correctness
open VerticalAI.Foundation VerticalAI.Contracts

section Threshold

variable [Digest] [SignatureScheme]

/-- The distinct keys of the root that validly signed it. -/
def signers (signed : SignedRoot) : Finset VerifyingKey :=
  (signed.signatures.list.filterMap signed.root.signer).toFinset

/-- If it verifies, it was signed at all, and by as many keys as the threshold says. -/
def ThresholdMeansKeys (signed : SignedRoot) (nowMs : UInt64) : Prop :=
  signed.verify nowMs = .ok ()
    → (signers signed).Nonempty ∧ signed.root.threshold.toNat ≤ (signers signed).card

/-- A key id whose entry in the signatures counts, for this key. -/
def Signs (signed : SignedRoot) (keyId : String) (key : VerifyingKey) : Prop :=
  ∃ sigHex, signed.signatures[keyId]? = some sigHex
    ∧ signed.root.signer (keyId, sigHex) = some key

/-- The root is not current, asks for one key, or asks for several and either counts too few entries
or no key twice among them.
-/
def CountsKeys (signed : SignedRoot) (nowMs : UInt64) : Prop :=
  signed.root.expiresAtMs ≤ nowMs ∨ signed.root.threshold = 1
    ∨ 2 ≤ signed.root.threshold.toNat
      ∧ ((∀ ids : Finset String, (∀ keyId ∈ ids, ∃ key, Signs signed keyId key)
            → ids.card < signed.root.threshold.toNat)
          ∨ ∀ keyId other key, Signs signed keyId key → Signs signed other key → keyId = other)

/-- Some of the signatures. -/
def Among (selection signatures : Table String) : Prop :=
  ∀ keyId : String, ∀ sigHex, selection[keyId]? = some sigHex → signatures[keyId]? = some sigHex

variable {signed : SignedRoot} {nowMs : UInt64}

theorem Signs.unique {keyId : String} {key other : VerifyingKey} (signs : Signs signed keyId key)
    (signsToo : Signs signed keyId other)
    : key = other := by
  obtain ⟨sigHex, stored, signer⟩ := signs
  obtain ⟨otherHex, found, signerToo⟩ := signsToo
  obtain rfl := Option.some.inj (stored.symm.trans found)
  exact Option.some.inj (signer.symm.trans signerToo)

-----------------------------------------------------------------------------------------
-- Counting entries and keys
-----------------------------------------------------------------------------------------

/-- The key ids whose entries count. -/
def signingIds (signed : SignedRoot) : Finset String :=
  ((signed.signatures.list.filter fun entry => (signed.root.signer entry).isSome).map
    Prod.fst).toFinset

theorem mem_signingIds {keyId : String}
    : keyId ∈ signingIds signed ↔ ∃ key, Signs signed keyId key := by
  rw [signingIds, List.mem_toFinset, List.mem_map]
  constructor
  · intro ⟨(name, sigHex), member, named⟩
    obtain ⟨listed, valid⟩ := List.mem_filter.mp member
    obtain ⟨key, signer⟩ := Option.isSome_iff_exists.mp valid
    subst named
    exact ⟨key, sigHex, Table.mem_list.mp listed, signer⟩
  · intro ⟨key, sigHex, stored, signer⟩
    exact ⟨(keyId, sigHex),
      List.mem_filter.mpr ⟨Table.mem_list.mpr stored, by rw [signer, Option.isSome_some]⟩, rfl⟩

theorem card_signingIds (signed : SignedRoot)
    : (signingIds signed).card
      = signed.signatures.list.countP fun entry => (signed.root.signer entry).isSome := by
  have distinct : ((signed.signatures.list.filter fun entry =>
      (signed.root.signer entry).isSome).map Prod.fst).Nodup :=
    List.pairwise_map.mpr ((Table.list_distinct signed.signatures).filter _)
  rw [signingIds, List.toFinset_card_of_nodup distinct, List.length_map,
    List.countP_eq_length_filter]

/-- What verifies is current and has as many signing ids as the threshold says. -/
theorem verify_ok_iff_card
    : signed.verify nowMs = .ok ()
      ↔ nowMs < signed.root.expiresAtMs
        ∧ signed.root.threshold.toNat ≤ (signingIds signed).card := by
  rw [card_signingIds, SignedRoot.verify_ok_iff]

theorem mem_signers {key : VerifyingKey}
    : key ∈ signers signed ↔ ∃ keyId, Signs signed keyId key := by
  rw [signers, List.mem_toFinset, List.mem_filterMap]
  constructor
  · intro ⟨(keyId, sigHex), listed, signer⟩
    exact ⟨keyId, sigHex, Table.mem_list.mp listed, signer⟩
  · intro ⟨keyId, sigHex, stored, signer⟩
    exact ⟨(keyId, sigHex), Table.mem_list.mpr stored, signer⟩

theorem signers_nonempty (some : 0 < (signingIds signed).card) : (signers signed).Nonempty := by
  obtain ⟨keyId, member⟩ := Finset.card_pos.mp some
  obtain ⟨key, signs⟩ := mem_signingIds.mp member
  exact ⟨key, mem_signers.mpr ⟨keyId, signs⟩⟩

/-- Where no key signs under two ids, there are as many keys as signing ids. -/
theorem card_signers_of_distinct
    (distinct : ∀ keyId other key, Signs signed keyId key → Signs signed other key → keyId = other)
    : (signingIds signed).card ≤ (signers signed).card := by
  have : Nonempty VerifyingKey := ⟨.repeated 0⟩
  have signing : ∀ keyId ∈ signingIds signed, ∃ key, Signs signed keyId key :=
    fun keyId member => mem_signingIds.mp member
  choose! keyOf signs using signing
  refine Finset.card_le_card_of_injOn keyOf (fun keyId member => ?_) ?_
  · exact mem_signers.mpr ⟨keyId, signs keyId member⟩
  · intro keyId member other otherMember same
    exact distinct keyId other (keyOf keyId) (signs keyId member) (same ▸ signs other otherMember)

/-- Where one does, there are fewer. -/
theorem card_signers_of_repeated {keyId other : String} {key : VerifyingKey}
    (apart : keyId ≠ other) (first : Signs signed keyId key) (second : Signs signed other key)
    : (signers signed).card < (signingIds signed).card := by
  have idIn : keyId ∈ signingIds signed := mem_signingIds.mpr ⟨key, first⟩
  have otherIn : other ∈ signingIds signed := mem_signingIds.mpr ⟨key, second⟩
  have : Nonempty VerifyingKey := ⟨key⟩
  have signing : ∀ name ∈ signingIds signed, ∃ key, Signs signed name key :=
    fun name member => mem_signingIds.mp member
  choose! keyOf signs using signing
  have same : keyOf keyId = keyOf other :=
    ((signs keyId idIn).unique first).trans (second.unique (signs other otherIn))
  -- The two ids add one key, so dropping one of them loses none.
  have covered : signers signed ⊆ ((signingIds signed).erase other).image keyOf := by
    intro found member
    obtain ⟨name, signer⟩ := mem_signers.mp member
    have nameIn : name ∈ signingIds signed := mem_signingIds.mpr ⟨found, signer⟩
    obtain rfl := signer.unique (signs name nameIn)
    by_cases dropped : name = other
    · exact Finset.mem_image.mpr
        ⟨keyId, Finset.mem_erase.mpr ⟨apart, idIn⟩, by rw [dropped, same]⟩
    · exact Finset.mem_image.mpr ⟨name, Finset.mem_erase.mpr ⟨dropped, nameIn⟩, rfl⟩
  calc (signers signed).card
      ≤ ((signingIds signed).erase other).card :=
        (Finset.card_le_card covered).trans Finset.card_image_le
    _ < (signingIds signed).card := Finset.card_erase_lt_of_mem otherIn

-----------------------------------------------------------------------------------------
-- Where the threshold means keys
-----------------------------------------------------------------------------------------

/-- Fewer signatures count no more keys twice. -/
theorem CountsKeys.among {selection : Table String} (counts : CountsKeys signed nowMs)
    (among : Among selection signed.signatures)
    : CountsKeys ⟨signed.root, selection⟩ nowMs := by
  have kept {keyId : String} {key : VerifyingKey} (signs : Signs ⟨signed.root, selection⟩ keyId key)
      : Signs signed keyId key := by
    obtain ⟨sigHex, stored, signer⟩ := signs
    exact ⟨sigHex, among keyId sigHex stored, signer⟩
  refine counts.imp_right (Or.imp_right (And.imp_right (Or.imp (fun few ids each => ?_)
    fun distinct keyId other key first second => ?_)))
  · exact few ids fun keyId member => (each keyId member).imp fun key => kept
  · exact distinct keyId other key (kept first) (kept second)

theorem CountsKeys.thresholdMeansKeys (counts : CountsKeys signed nowMs)
    : ThresholdMeansKeys signed nowMs := by
  intro verified
  have ⟨current, enough⟩ := verify_ok_iff_card.mp verified
  rcases counts with expired | one | ⟨several, few | distinct⟩
  · exact absurd current (UInt64.not_lt.mpr expired)
  · have need : signed.root.threshold.toNat = 1 := by rw [one]; rfl
    have some := signers_nonempty (Nat.lt_of_lt_of_le (by omega) enough)
    exact ⟨some, need ▸ some.card_pos⟩
  · have short := few (signingIds signed) fun keyId member => mem_signingIds.mp member
    exact absurd enough (Nat.not_le.mpr short)
  · exact ⟨signers_nonempty (by omega), enough.trans (card_signers_of_distinct distinct)⟩

/-- The signatures under any ids are a selection. -/
theorem exists_selection (signed : SignedRoot) (chosen : Finset String)
    : ∃ selection, Among selection signed.signatures
        ∧ ∀ keyId key, Signs ⟨signed.root, selection⟩ keyId key
            ↔ keyId ∈ chosen ∧ Signs signed keyId key := by
  let selection : Table String := signed.signatures.filter fun keyId _ => keyId ∈ chosen
  have stored (keyId sigHex : String) : selection[keyId]? = some sigHex
      ↔ keyId ∈ chosen ∧ signed.signatures[keyId]? = some sigHex := by
    rw [Std.ExtTreeMap.getElem?_filter', Option.filter_eq_some_iff, decide_eq_true_eq, and_comm]
  refine ⟨selection, fun keyId sigHex found => ((stored keyId sigHex).mp found).2,
    fun keyId key => ⟨?_, ?_⟩⟩
  · intro ⟨sigHex, found, signer⟩
    obtain ⟨inChosen, held⟩ := (stored keyId sigHex).mp found
    exact ⟨inChosen, sigHex, held, signer⟩
  · intro ⟨inChosen, sigHex, held, signer⟩
    exact ⟨sigHex, (stored keyId sigHex).mpr ⟨inChosen, held⟩, signer⟩

/-- Where a key counts twice, as many of the signatures as the threshold says verify with fewer
keys.
-/
theorem countsKeys_of_selections
    (means : ∀ selection, Among selection signed.signatures
      → ThresholdMeansKeys ⟨signed.root, selection⟩ nowMs)
    : CountsKeys signed nowMs := by
  by_contra misled
  simp only [CountsKeys, not_or, not_and, not_forall] at misled
  obtain ⟨current, notOne, several⟩ := misled
  have inTime : nowMs < signed.root.expiresAtMs := UInt64.not_le.mp current
  by_cases asks : 2 ≤ signed.root.threshold.toNat
  · obtain ⟨⟨ids, each, many⟩, keyId, other, key, first, second, apart⟩ := several asks
    have pair : ({keyId, other} : Finset String).card = 2 := Finset.card_pair apart
    have all : {keyId, other} ∪ ids ⊆ signingIds signed := by
      intro name member
      simp only [Finset.mem_union, Finset.mem_insert, Finset.mem_singleton] at member
      rcases member with (rfl | rfl) | found
      · exact mem_signingIds.mpr ⟨key, first⟩
      · exact mem_signingIds.mpr ⟨key, second⟩
      · exact mem_signingIds.mpr (each name found)
    obtain ⟨chosen, both, within, counted⟩ : ∃ chosen : Finset String,
        {keyId, other} ⊆ chosen ∧ chosen ⊆ {keyId, other} ∪ ids
        ∧ chosen.card = signed.root.threshold.toNat :=
      Finset.exists_subsuperset_card_eq Finset.subset_union_left (by omega)
        (Nat.le_trans (Nat.not_lt.mp many) (Finset.card_le_card Finset.subset_union_right))
    obtain ⟨selection, among, signs⟩ := exists_selection signed chosen
    have ids_eq : signingIds ⟨signed.root, selection⟩ = chosen := by
      ext name
      rw [mem_signingIds]
      constructor
      · rintro ⟨key, signer⟩
        exact ((signs name key).mp signer).1
      · intro member
        obtain ⟨key, signer⟩ := mem_signingIds.mp (all (within member))
        exact ⟨key, (signs name key).mpr ⟨member, signer⟩⟩
    have verified : SignedRoot.verify ⟨signed.root, selection⟩ nowMs = .ok () :=
      verify_ok_iff_card.mpr ⟨inTime, by rw [ids_eq, counted]⟩
    have enough := (means selection among verified).2
    have fewer := card_signers_of_repeated apart
      ((signs keyId key).mpr ⟨both (Finset.mem_insert_self _ _), first⟩)
      ((signs other key).mpr
        ⟨both (Finset.mem_insert_of_mem (Finset.mem_singleton_self _)), second⟩)
    rw [ids_eq, counted] at fewer
    exact absurd enough (Nat.not_le.mpr fewer)
  · have zero : signed.root.threshold.toNat = 0 := by
      have one : signed.root.threshold.toNat ≠ 1 := fun one => notOne (UInt8.toNat_inj.mp one)
      omega
    have none : Among ∅ signed.signatures := fun keyId sigHex found => by
      rw [Std.ExtTreeMap.getElem?_empty] at found
      cases found
    have verified : SignedRoot.verify ⟨signed.root, ∅⟩ nowMs = .ok () :=
      verify_ok_iff_card.mpr ⟨inTime, by rw [zero]; exact Nat.zero_le _⟩
    obtain ⟨key, member⟩ := (means ∅ none verified).1
    simp [signers] at member

/-- A root with its signatures, and with any of them, is signed by as many keys as its threshold
says wherever it verifies, exactly if it counts keys.
-/
theorem thresholdMeansKeys_iff (signed : SignedRoot) (nowMs : UInt64)
    : (∀ selection, Among selection signed.signatures
        → ThresholdMeansKeys ⟨signed.root, selection⟩ nowMs)
      ↔ CountsKeys signed nowMs :=
  ⟨countsKeys_of_selections,
    fun counts _ among => (counts.among among).thresholdMeansKeys⟩

-----------------------------------------------------------------------------------------
-- Roots
-----------------------------------------------------------------------------------------

/-- A key id that is listed with a key under which the root can be signed. -/
def Usable (root : RootRole) (keyId : String) (key : VerifyingKey) : Prop :=
  ∃ vkHex signature, root.keys[keyId]? = some vkHex ∧ verifyingKeyOfHex vkHex = some key
    ∧ SignatureScheme.verifies key root.digest signature = true

theorem usable_iff {root : RootRole} {keyId : String} {key : VerifyingKey}
    : Usable root keyId key ↔ ∃ sigHex, root.signer (keyId, sigHex) = some key := by
  constructor
  · intro ⟨vkHex, signature, listed, spelled, verifies⟩
    refine ⟨Hex.encode signature.val, RootRole.signer_eq_some_iff.mpr
      ⟨vkHex, signature, listed, spelled, ?_, verifies⟩⟩
    rw [signatureOfHex, Hex.decode_encode, Option.bind_some, sized, dif_pos signature.property]
  · intro ⟨sigHex, signer⟩
    obtain ⟨vkHex, signature, listed, spelled, -, verifies⟩ :=
      RootRole.signer_eq_some_iff.mp signer
    exact ⟨vkHex, signature, listed, spelled, verifies⟩

/-- The root never is current, asks for one key, or asks for several and either lists too few usable
ids or no key twice among them.
-/
def RootCountsKeys (root : RootRole) : Prop :=
  root.expiresAtMs = 0 ∨ root.threshold = 1
    ∨ 2 ≤ root.threshold.toNat
      ∧ ((∀ ids : Finset String, (∀ keyId ∈ ids, ∃ key, Usable root keyId key)
            → ids.card < root.threshold.toNat)
          ∨ ∀ keyId other key, Usable root keyId key → Usable root other key → keyId = other)

/-- Any usable ids can all sign. -/
theorem exists_signatures {root : RootRole} {ids : Finset String}
    (usable : ∀ keyId ∈ ids, ∃ key, Usable root keyId key)
    : ∃ signatures : Table String,
        ∀ keyId ∈ ids, ∀ key, Usable root keyId key → Signs ⟨root, signatures⟩ keyId key := by
  have hex (keyId : String) (member : keyId ∈ ids)
      : ∃ sigHex, ∀ key, Usable root keyId key → root.signer (keyId, sigHex) = some key := by
    obtain ⟨key, one⟩ := usable keyId member
    obtain ⟨sigHex, signer⟩ := usable_iff.mp one
    refine ⟨sigHex, fun other also => ?_⟩
    obtain ⟨vkHex, -, listed, spelled, -⟩ := one
    obtain ⟨otherHex, -, found, read, -⟩ := also
    obtain rfl := Option.some.inj (listed.symm.trans found)
    rw [signer, ← spelled, read]
  choose! sigOf signs using hex
  let rows := ids.toList.map fun keyId => (keyId, sigOf keyId)
  have agree : ∀ row ∈ rows, ∀ other ∈ rows, row.1 = other.1 → row = other := by
    intro row member other otherMember same
    obtain ⟨keyId, -, rfl⟩ := List.mem_map.mp member
    obtain ⟨next, -, rfl⟩ := List.mem_map.mp otherMember
    obtain rfl : keyId = next := same
    rfl
  refine ⟨rows.foldl (fun built row => built.insert row.1 row.2) ∅,
    fun keyId member key use => ⟨sigOf keyId, ?_, signs keyId member key use⟩⟩
  rw [Table.getElem?_foldl_insert agree]
  simp [rows, member]

/-- A root counts keys with whatever signatures exactly if its usable ids do. -/
theorem rootCountsKeys_iff (root : RootRole)
    : (∀ signatures nowMs, ThresholdMeansKeys ⟨root, signatures⟩ nowMs) ↔ RootCountsKeys root := by
  constructor
  · intro means
    have counts (signatures : Table String) : CountsKeys ⟨root, signatures⟩ 0 :=
      (thresholdMeansKeys_iff ⟨root, signatures⟩ 0).mp fun selection _ => means selection 0
    by_cases never : root.expiresAtMs = 0
    · exact Or.inl never
    refine (counts ∅).imp (fun expired => UInt64.le_zero_iff.mp expired)
      (Or.imp_right fun ⟨several, _⟩ => ⟨several, ?_⟩)
    by_contra misled
    simp only [not_or, not_forall] at misled
    obtain ⟨⟨ids, usable, many⟩, keyId, other, key, first, second, apart⟩ := misled
    have all : ∀ name ∈ ids ∪ {keyId, other}, ∃ key, Usable root name key := by
      intro name member
      simp only [Finset.mem_union, Finset.mem_insert, Finset.mem_singleton] at member
      rcases member with found | rfl | rfl
      · exact usable name found
      · exact ⟨key, first⟩
      · exact ⟨key, second⟩
    obtain ⟨signatures, signs⟩ := exists_signatures all
    rcases counts signatures with expired | one | ⟨-, few | distinct⟩
    · exact never (UInt64.le_zero_iff.mp expired)
    · have one : root.threshold = 1 := one
      rw [one] at several
      exact absurd several (by decide)
    · refine many (few ids fun name member => ?_)
      obtain ⟨key, use⟩ := usable name member
      exact ⟨key, signs name (Finset.mem_union_left _ member) key use⟩
    · exact apart (distinct keyId other key (signs keyId (by simp) key first)
        (signs other (by simp) key second))
  · intro counts signatures nowMs
    have used {keyId : String} {key : VerifyingKey} (signs : Signs ⟨root, signatures⟩ keyId key)
        : Usable root keyId key := by
      obtain ⟨sigHex, -, signer⟩ := signs
      exact usable_iff.mpr ⟨sigHex, signer⟩
    refine CountsKeys.thresholdMeansKeys (counts.imp (fun never => ?_) (Or.imp_right (And.imp_right
      (Or.imp (fun few ids each => ?_) fun distinct keyId other key first second => ?_))))
    · rw [never]
      exact UInt64.zero_le
    · exact few ids fun keyId member => (each keyId member).imp fun key => used
    · exact distinct keyId other key (used first) (used second)

end Threshold

section Run

/-- A signature is the key and the start of the message. -/
@[reducible] private def startSignatures : SignatureScheme where
  verifies key message signature := signature.val = key.val ++ message.take 32

attribute [local instance] plainDigest startSignatures

private def soleKey : VerifyingKey := .repeated 7

private def soleHex : String := Hex.encode soleKey.val

/-- A root that lists one key under two ids. -/
private def doubledRoot : RootRole where
  keys := ((∅ : Table String).insert "a" soleHex).insert "b" soleHex
  threshold := 2
  expiresAtMs := 9

private def doubledSignatures : Table String :=
  let signature := Hex.encode (soleKey.val ++ doubledRoot.digest.take 32)
  ((∅ : Table String).insert "a" signature).insert "b" signature

private def openRoot : RootRole := ⟨doubledRoot.keys, 0, 9⟩

private theorem digest_long {root : RootRole} (long : 13 ≤ (Utf8.encode root.toJson.render).length)
    : 32 ≤ root.digest.length := by
  have spelled : 32 ≤ (hashCanonical root.toJson).toList.length := by
    have start : "sha256:".toList.length = 7 := by decide
    rw [hashCanonical, hashBytes, String.toList_append, List.length_append, Hex.length_encode, start]
    exact Nat.le_trans (by omega) (Nat.add_le_add_left (Nat.mul_le_mul_left 2 long) 7)
  exact Nat.le_trans spelled (Utf8.length_le_length_encode _)

private theorem doubledRoot_long : 13 ≤ (Utf8.encode doubledRoot.toJson.render).length := by
  decide +kernel

/-- The key signs under whatever id it is listed with. -/
private theorem doubledRoot_signer {keyId : String}
    (listed : doubledRoot.keys[keyId]? = some soleHex)
    : doubledRoot.signer (keyId, Hex.encode (soleKey.val ++ doubledRoot.digest.take 32))
      = some soleKey := by
  have length : (soleKey.val ++ doubledRoot.digest.take 32).length = 64 := by
    rw [List.length_append, List.length_take_of_le (digest_long doubledRoot_long)]
    rfl
  refine RootRole.signer_eq_some_iff.mpr ⟨soleHex, ⟨_, length⟩, listed, ?_, ?_, decide_eq_true rfl⟩
  · rw [verifyingKeyOfHex, soleHex, Hex.decode_encode]
    rfl
  · rw [signatureOfHex, Hex.decode_encode, Option.bind_some, sized, dif_pos length]

private theorem list_twoRows (row : String)
    : Table.list (((∅ : Table String).insert "a" row).insert "b" row)
      = [("a", row), ("b", row)] := rfl

private theorem doubledRoot_signs
    : ∃ entries, doubledSignatures.list = entries
        ∧ entries.map doubledRoot.signer = [some soleKey, some soleKey] := by
  have first : doubledRoot.keys["a"]? = some soleHex := by decide +kernel
  have second : doubledRoot.keys["b"]? = some soleHex := Std.ExtTreeMap.getElem?_insert_self
  refine ⟨_, list_twoRows _, ?_⟩
  rw [List.map_cons, List.map_cons, doubledRoot_signer first, doubledRoot_signer second, List.map_nil]

private theorem doubledRoot_passes
    : SignedRoot.verify ⟨doubledRoot, doubledSignatures⟩ 5 = .ok () := by
  obtain ⟨entries, listed, signs⟩ := doubledRoot_signs
  have counted : (entries.countP fun entry => (doubledRoot.signer entry).isSome) = 2 := by
    calc (entries.countP fun entry => (doubledRoot.signer entry).isSome)
        = (entries.map doubledRoot.signer).countP Option.isSome := by
          rw [List.countP_map]
          rfl
      _ = 2 := by rw [signs]; rfl
  refine SignedRoot.verify_ok_iff.mpr ⟨by decide, ?_⟩
  rw [listed, counted]
  exact Nat.le_refl 2

private theorem doubledRoot_signers
    : signers ⟨doubledRoot, doubledSignatures⟩ = {soleKey} := by
  obtain ⟨entries, listed, signs⟩ := doubledRoot_signs
  have found : entries.filterMap doubledRoot.signer = [soleKey, soleKey] := by
    calc entries.filterMap doubledRoot.signer
        = (entries.map doubledRoot.signer).filterMap id := by
          rw [List.filterMap_map]
          rfl
      _ = _ := by rw [signs]; rfl
  rw [signers, listed, found]
  rfl

private theorem openRoot_passes : SignedRoot.verify ⟨openRoot, ∅⟩ 5 = .ok () :=
  SignedRoot.verify_ok_iff.mpr ⟨by decide, Nat.zero_le _⟩

/-- One key that signs under two ids meets a threshold of two, and a threshold of zero is met
without any.
-/
theorem one_key_meets_threshold_of_two
    : ¬ThresholdMeansKeys ⟨doubledRoot, doubledSignatures⟩ 5 ∧ ¬ThresholdMeansKeys ⟨openRoot, ∅⟩ 5 := by
  constructor
  · intro means
    have enough := (means doubledRoot_passes).2
    rw [doubledRoot_signers, Finset.card_singleton] at enough
    exact absurd enough (Nat.not_le.mpr Nat.one_lt_two)
  · intro means
    obtain ⟨key, member⟩ := (means openRoot_passes).1
    simp [signers] at member

end Run

end VerticalAI.Correctness
