import XBlast.Foundation.ByteImage
import XBlast.Foundation.Iteration
import XBlast.Foundation.Keystream

/-!
# The sealed section of the EEPROM

The first `0x30` bytes of the EEPROM hold a hash, then a confounder, the hard disk key and the game
region. `encryptEEPROMData` seals a plaintext for one of three console versions: it writes the hash
of the 28 data bytes in front of them, derives an RC4 key from that hash and encrypts the data.
`decryptEEPROMData` does not know the version. It tries the three in order and takes the first whose
decryption matches the hash.

RC4 is modelled as `rc4.c` computes it. The hash `HMAC_hdd_calculation` is a parameter of the
development: an arbitrary function of a version and the bytes given to it. `cryptBlock_cryptBlock`
shows that the step that both functions share undoes itself, `decryptEEPROMData_cases` is what the
search over the versions can return, and `seal_round_trip` is the round trip.
-/

set_option autoImplicit false
set_option relaxedAutoImplicit false

namespace XBlast.Eeprom

open Foundation

/-! ### RC4 -/

/-- `rc4_key`. -/
structure Rc4Key where
  state : Vector UInt8 256
  x : UInt8
  y : UInt8

def swapByte (state : Vector UInt8 256) (a b : UInt8) : Vector UInt8 256 :=
  state.swap a.toNat b.toNat a.toNat_lt b.toNat_lt

/-- The local variables of `rc4_prepare_key`. -/
structure KeySchedule where
  state : Vector UInt8 256
  index1 : UInt8
  index2 : UInt8

/-- One turn of the second loop of `rc4_prepare_key`. -/
def scheduleStep (keyData : List UInt8) (schedule : KeySchedule) (counter : UInt8) : KeySchedule :=
  let index2 := keyData.getD schedule.index1.toNat 0 + schedule.state.get counter.toFin +
    schedule.index2
  { state := swapByte schedule.state counter index2
    index1 := UInt8.ofNat ((schedule.index1.toNat + 1) % keyData.length)
    index2 := index2 }

def rc4PrepareKey (keyData : List UInt8) : Rc4Key :=
  let start : KeySchedule :=
    { state := Vector.ofFn fun counter ↦ UInt8.ofNat counter.val, index1 := 0, index2 := 0 }
  let counters := (List.range 256).map UInt8.ofNat
  { state := (counters.foldl (scheduleStep keyData) start).state, x := 0, y := 0 }

/-- One turn of the loop of `rc4_crypt`: the byte the buffer is combined with, and the key after
it. -/
def rc4Next (key : Rc4Key) : UInt8 × Rc4Key :=
  let x := key.x + 1
  let y := key.state.get x.toFin + key.y
  let state := swapByte key.state x y
  let xorIndex := state.get x.toFin + state.get y.toFin
  (state.get xorIndex.toFin, { state := state, x := x, y := y })

def rc4Crypt (buffer : List UInt8) (key : Rc4Key) : List UInt8 × Rc4Key :=
  applyKeystream rc4Next buffer key

theorem swapByte_perm {state table : Vector UInt8 256} (hstate : state.Perm table) (a b : UInt8) :
    (swapByte state a b).Perm table :=
  (Vector.swap_perm _ _).trans hstate

/-- The table of a key that has been prepared and then used on any buffers is a permutation of all
bytes. -/
theorem rc4Crypt_perm (keyData : List UInt8) (buffers : List (List UInt8)) :
    (buffers.foldl (fun key buffer ↦ (rc4Crypt buffer key).2) (rc4PrepareKey keyData)).state.Perm
      (Vector.ofFn fun counter ↦ UInt8.ofNat counter.val) := by
  generalize htable : (Vector.ofFn fun counter : Fin 256 ↦ UInt8.ofNat counter.val) = table
  have hprepared : (rc4PrepareKey keyData).state.Perm table := by
    rw [rc4PrepareKey, htable]
    exact @foldl_invariant _ _ _ (fun schedule : KeySchedule ↦ schedule.state.Perm table)
      (fun _ _ hschedule ↦ swapByte_perm hschedule _ _) _ (.refl table) _
  refine @foldl_invariant _ _ _ (fun key : Rc4Key ↦ key.state.Perm table) ?_ _ hprepared buffers
  intro key buffer hkey
  exact applyKeystream_invariant (fun _ hnext ↦ swapByte_perm hnext _ _) buffer hkey

/-! ### Sealing and opening -/

/-- `EEPROMDATA`: the packed image of the whole EEPROM. -/
abbrev EepromData := Packed 256

/-- `EEPROM_EncryptVersion`. -/
inductive EncryptVersion
  | invalid
  | v1_0
  | v1_1
  | v1_6
  deriving DecidableEq, Repr

def EncryptVersion.value : EncryptVersion → ℕ
  | .invalid => 0x00
  | .v1_0 => 0x0A
  | .v1_1 => 0x0B
  | .v1_6 => 0x0C

theorem EncryptVersion.value_injective {first second : EncryptVersion}
    (hvalue : first.value = second.value) : first = second := by
  cases first <;> cases second <;> first | rfl | exact absurd hvalue (by decide)

/-- The versions that the loop of `decryptEEPROMData` counts through. -/
def encryptVersions : List EncryptVersion := [.v1_0, .v1_1, .v1_6]

theorem mem_encryptVersions {version : EncryptVersion} :
    version ∈ encryptVersions ↔ version ≠ .invalid := by
  cases version <;> decide

/-- The keyed checksum of each version. -/
abbrev Hmac := EncryptVersion → List UInt8 → Vector UInt8 20

section

variable (hmac : Hmac)

variable (version : EncryptVersion) (block : Packed 0x30)

/-- The Key-Hash of the first 20 bytes, the RC4 key made from it, and RC4 over the confounder, the
HDD key and the game region in a single block. -/
def cryptBlock : Packed 0x30 :=
  let baKeyHash := hmac version (block.bytes 0 20)
  block.write 20 (rc4Crypt (block.bytes 20 28) (rc4PrepareKey baKeyHash.toList)).1

/-- The Confirm-Hash of an open block. -/
def confirmHash : Vector UInt8 20 :=
  hmac version (block.bytes 20 8 ++ block.bytes 28 20)

/-- The test of `decryptEEPROMData` for one version. -/
def Validates : Prop :=
  (cryptBlock hmac version block).bytes 0 20 =
    (confirmHash hmac version (cryptBlock hmac version block)).toList

instance (version : EncryptVersion) : DecidablePred (Validates hmac version) :=
  fun _ ↦ inferInstanceAs (Decidable (_ = _))

/-- The bytes that `decryptEEPROMData` copies out of an EEPROM image. -/
def sealedBlock (eeprom : EepromData) : Packed 0x30 := readPacked 0x30 eeprom.image 0

/-- The version found, and the local copy that is copied to `decryptedBuf` unless that is `NULL`:
the block opened with the version found, or with the last one tried. -/
def decryptEEPROMData (eeprom : EepromData) : EncryptVersion × Packed 0x30 :=
  match encryptVersions.find? fun counter ↦ Validates hmac counter (sealedBlock eeprom) with
  | some version => (version, cryptBlock hmac version (sealedBlock eeprom))
  | none => (.invalid, cryptBlock hmac .v1_6 (sealedBlock eeprom))

/-- Seals the input for a version. The input buffer is overwritten (first component) before it is
copied to the target (second component). -/
def encryptEEPROMData (decryptedInput : Packed 0x30) (target : EepromData)
    (targetVersion : EncryptVersion) : Packed 0x30 × EepromData :=
  let baDataHashConfirm := confirmHash hmac targetVersion decryptedInput
  let hashed := decryptedInput.write 0 baDataHashConfirm.toList
  let encrypted := cryptBlock hmac targetVersion hashed
  (encrypted, target.write 0 (encrypted.bytes 0 0x30))

end

/-! ### The block after one step -/

variable {hmac : Hmac} {version : EncryptVersion}
  {block : Packed 0x30}

theorem rc4Crypt_length (buffer : List UInt8) (key : Rc4Key) :
    (rc4Crypt buffer key).1.length = buffer.length :=
  applyKeystream_length rc4Next buffer key

/-- The hash in front of a block is not encrypted. -/
theorem cryptBlock_hash : (cryptBlock hmac version block).bytes 0 20 = block.bytes 0 20 :=
  block.bytes_write_outside (.inl (Nat.le_refl 20))

theorem cryptBlock_data : (cryptBlock hmac version block).bytes 20 28 =
    (rc4Crypt (block.bytes 20 28)
      (rc4PrepareKey (hmac version (block.bytes 0 20)).toList)).1 :=
  block.bytes_write (by rw [rc4Crypt_length, Packed.length_bytes]) (Nat.le_refl 0x30)

/-- A block is its hash followed by its data. -/
theorem block_ext {other : Packed 0x30} (hhash : block.bytes 0 20 = other.bytes 0 20)
    (hdata : block.bytes 20 28 = other.bytes 20 28) : block = other := by
  apply Packed.ext_bytes
  calc block.bytes 0 (20 + 28)
      = block.bytes 0 20 ++ block.bytes (0 + 20) 28 := block.bytes_append.symm
    _ = other.bytes 0 20 ++ other.bytes (0 + 20) 28 := by rw [hhash, zero_add, hdata]
    _ = other.bytes 0 (20 + 28) := other.bytes_append

/-- **RC4 with the key of a block undoes itself**: the key is derived from the hash, which is not
encrypted. -/
theorem cryptBlock_cryptBlock :
    cryptBlock hmac version (cryptBlock hmac version block) = block := by
  apply block_ext
  · rw [cryptBlock_hash, cryptBlock_hash]
  · rw [cryptBlock_data, cryptBlock_hash, cryptBlock_data]
    exact applyKeystream_applyKeystream rc4Next _ _

/-- Confounder, HDD key and game region of a block are its 28 data bytes. -/
theorem confirmHash_eq : confirmHash hmac version block = hmac version (block.bytes 20 28) :=
  congrArg (hmac version) block.bytes_append

/-- A block validates under a version if its hash is that of its data after decryption. -/
theorem validates_iff : Validates hmac version block ↔
    block.bytes 0 20 = (hmac version ((cryptBlock hmac version block).bytes 20 28)).toList := by
  rw [Validates, cryptBlock_hash, confirmHash_eq]

/-! ### What the two functions return -/

/-- The search over the versions returns the first that validates. -/
theorem decryptEEPROMData_cases (hmac : Hmac)
    (eeprom : EepromData) :
    (∃ version, version ≠ .invalid ∧ Validates hmac version (sealedBlock eeprom) ∧
      (∀ lower, lower ≠ .invalid → lower.value < version.value →
        ¬Validates hmac lower (sealedBlock eeprom)) ∧
      decryptEEPROMData hmac eeprom = (version, cryptBlock hmac version (sealedBlock eeprom))) ∨
    ((∀ version, version ≠ .invalid → ¬Validates hmac version (sealedBlock eeprom)) ∧
      decryptEEPROMData hmac eeprom =
        (.invalid, cryptBlock hmac .v1_6 (sealedBlock eeprom))) := by
  rw [decryptEEPROMData]
  cases hfind : encryptVersions.find? fun counter ↦
      Validates hmac counter (sealedBlock eeprom) with
  | none =>
    refine .inr ⟨fun version hversion hvalidates ↦ ?_, rfl⟩
    have hnone := List.find?_eq_none.mp hfind version (mem_encryptVersions.mpr hversion)
    exact hnone (decide_eq_true hvalidates)
  | some version =>
    obtain ⟨hvalidates, before, after, hsplit, hbefore⟩ :=
      List.find?_eq_some_iff_append.mp hfind
    have hversion : version ∈ encryptVersions := by
      rw [hsplit]
      exact List.mem_append_right _ List.mem_cons_self
    refine .inl ⟨version, mem_encryptVersions.mp hversion, of_decide_eq_true hvalidates,
      fun lower hlower hless hlowerValidates ↦ ?_, rfl⟩
    have hsorted : encryptVersions.Pairwise fun first second ↦ first.value < second.value := by
      decide
    have hmem := mem_encryptVersions.mpr hlower
    rw [hsplit] at hmem hsorted
    obtain hmem | hmem := List.mem_append.mp hmem
    · simpa [hlowerValidates] using hbefore lower hmem
    · obtain rfl | hmem := List.mem_cons.mp hmem
      · exact absurd hless (Nat.lt_irrefl _)
      · have hafter := (List.pairwise_cons.mp (List.pairwise_append.mp hsorted).2.1).1 lower hmem
        omega

/-- A version that validates is the one found if no lower version validates. -/
theorem decryptEEPROMData_eq {eeprom : EepromData} (hversion : version ≠ .invalid)
    (hvalidates : Validates hmac version (sealedBlock eeprom))
    (hlower : ∀ lower, lower ≠ .invalid → lower.value < version.value →
      ¬Validates hmac lower (sealedBlock eeprom)) :
    decryptEEPROMData hmac eeprom = (version, cryptBlock hmac version (sealedBlock eeprom)) := by
  obtain ⟨first, hfirst, hfound, hlowest, hresult⟩ | ⟨hnone, -⟩ :=
    decryptEEPROMData_cases hmac eeprom
  · have hle : first.value ≤ version.value :=
      Nat.le_of_not_lt fun hless ↦ hlowest version hversion hless hvalidates
    have hge : version.value ≤ first.value :=
      Nat.le_of_not_lt fun hless ↦ hlower first hfirst hless hfound
    rw [hresult, EncryptVersion.value_injective (Nat.le_antisymm hle hge)]
  · exact absurd hvalidates (hnone version hversion)

theorem bytes_sealedBlock {eeprom : EepromData} {start length : ℕ} (hsize : start + length ≤ 0x30) :
    (sealedBlock eeprom).bytes start length = eeprom.bytes start length :=
  Packed.bytes_readPacked hsize

variable {plain : Packed 0x30} {target : EepromData}

/-- The sealed block of the target is the input with its hash, encrypted. -/
theorem sealedBlock_encryptEEPROMData :
    sealedBlock (encryptEEPROMData hmac plain target version).2 =
      cryptBlock hmac version (plain.write 0 (confirmHash hmac version plain).toList) := by
  apply Packed.ext_bytes
  rw [bytes_sealedBlock (Nat.le_refl 0x30), encryptEEPROMData]
  exact target.bytes_write (Packed.length_bytes _) (by decide)

/-- Opening the sealed block with its own version gives the input with its hash. -/
theorem cryptBlock_sealedBlock_encryptEEPROMData :
    cryptBlock hmac version (sealedBlock (encryptEEPROMData hmac plain target version).2) =
      plain.write 0 (confirmHash hmac version plain).toList := by
  rw [sealedBlock_encryptEEPROMData, cryptBlock_cryptBlock]

theorem bytes_hashed_data (digest : Vector UInt8 20) :
    (plain.write 0 digest.toList).bytes 20 28 = plain.bytes 20 28 :=
  plain.bytes_write_outside (.inr (by simp))

/-- A sealed block validates under the version it was sealed for. -/
theorem validates_encryptEEPROMData :
    Validates hmac version (sealedBlock (encryptEEPROMData hmac plain target version).2) := by
  rw [validates_iff, cryptBlock_sealedBlock_encryptEEPROMData, sealedBlock_encryptEEPROMData,
    cryptBlock_hash, bytes_hashed_data, confirmHash_eq]
  exact plain.bytes_write (Vector.length_toList) (by decide)

/-- Sealing writes the first `0x30` bytes of the target only. -/
theorem encryptEEPROMData_outside {index : Fin 256} (hindex : 0x30 ≤ index.val) :
    (encryptEEPROMData hmac plain target version).2 index = target index :=
  target.write_outside (.inr (by rwa [Packed.length_bytes]))

/-- **The seal round trip.** After sealing a plaintext for a version, the bytes behind the sealed
block are unchanged and decryption finds a version. It is at most the one sealed for, the bytes it
gives out carry their own hash, and if no lower version validates by coincidence it is the version
sealed for, with the confounder, HDD key and game region of the plaintext. -/
theorem seal_round_trip (hmac : Hmac)
    (plain : Packed 0x30) (target : EepromData) (version : EncryptVersion)
    (hversion : version ≠ .invalid) :
    let eeprom := (encryptEEPROMData hmac plain target version).2
    let found := (decryptEEPROMData hmac eeprom).1
    let out := (decryptEEPROMData hmac eeprom).2
    (∀ index : Fin 256, 0x30 ≤ index.val → eeprom index = target index) ∧
      found ≠ .invalid ∧
      found.value ≤ version.value ∧
      out.bytes 0 20 = (hmac found (out.bytes 20 8 ++ out.bytes 28 20)).toList ∧
      ((∀ lower : EncryptVersion, lower ≠ .invalid → lower.value < version.value →
          ¬Validates hmac lower (sealedBlock eeprom)) →
        found = version ∧ out.bytes 20 28 = plain.bytes 20 28) := by
  intro eeprom found out
  have hseal : Validates hmac version (sealedBlock eeprom) := validates_encryptEEPROMData
  obtain ⟨first, hfirst, hvalidates, hlowest, hresult⟩ | ⟨hnone, hresult⟩ :=
    decryptEEPROMData_cases hmac eeprom
  · have hfound : found = first := congrArg Prod.fst hresult
    have hout : out = cryptBlock hmac first (sealedBlock eeprom) := congrArg Prod.snd hresult
    have hle : first.value ≤ version.value :=
      Nat.le_of_not_lt fun hless ↦ hlowest version hversion hless hseal
    refine ⟨fun index hindex ↦ encryptEEPROMData_outside hindex, hfound ▸ hfirst, hfound ▸ hle,
      ?_, fun hlower ↦ ?_⟩
    · rw [hfound, hout]
      exact hvalidates
    · have hsame : decryptEEPROMData hmac eeprom = _ := decryptEEPROMData_eq hversion hseal hlower
      refine ⟨congrArg Prod.fst hsame, ?_⟩
      rw [show out = _ from congrArg Prod.snd hsame, cryptBlock_sealedBlock_encryptEEPROMData,
        bytes_hashed_data]
  · exact absurd hseal (hnone version hversion)

/-- A console of version 1.0 always gets its own data back: there is no lower version. -/
theorem seal_round_trip_v1_0 :
    let hmac : Hmac := fun _ _ ↦ Vector.replicate 20 0
    let plain : Packed 0x30 := fun index ↦ UInt8.ofNat index.val
    let eeprom := (encryptEEPROMData hmac plain (fun _ ↦ 0xFF) .v1_0).2
    (decryptEEPROMData hmac eeprom).1 = .v1_0 ∧
      (decryptEEPROMData hmac eeprom).2.bytes 20 28 = plain.bytes 20 28 := by
  intro hmac plain eeprom
  have hlower : ∀ lower : EncryptVersion, lower ≠ .invalid →
      lower.value < EncryptVersion.v1_0.value → ¬Validates hmac lower (sealedBlock eeprom) := by
    intro lower hlower hless
    cases lower with
    | invalid => exact absurd rfl hlower
    | _ => exact absurd hless (by decide)
  exact (seal_round_trip hmac plain (fun _ ↦ 0xFF) .v1_0 (by decide)).2.2.2.2 hlower

end XBlast.Eeprom
