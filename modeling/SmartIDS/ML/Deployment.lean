import Mathlib.Data.List.OfFn
import SmartIDS.Foundation.Machine
import SmartIDS.ML.ModelStack
import SmartIDS.PacketCapture.RequestSigner
set_option autoImplicit false

/-!
# ML: recorded digests

`generate_artifact_checksums.py` writes beside each artifact the digest that the loader
compares.  Artifacts come and change at any time, and a run over them may stop half
way, also in the middle of a file it writes.  What the loader deserialises has at all
times the digest that the last such run recorded.
-/

namespace SmartIDS.ML

open SmartIDS.Foundation SmartIDS.Python SmartIDS.PacketCapture

/-! ## `generate_artifact_checksums.py` -/

/-- `hashlib.sha256`. -/
abbrev Digest : Type := ByteArray → Fin 32 → UInt8

/-- Its `hexdigest`. -/
def Digest.hex (sha : Digest) (bytes : ByteArray) : String := hexdigest (List.ofFn (sha bytes))

/-- What a `write_text` of a checksum file comes to. -/
inductive SidecarWrite where
  | done
  /-- it fails after some characters -/
  | torn (chars : ℕ)
  /-- the file cannot be opened -/
  | refused

/-- The directory of the models. -/
structure SavedModels where
  files : FileSystem := fun _ => .missing
  /-- The bytes a checksum file was made from, and how many of its characters were
  written; for the proofs only. -/
  recorded : String → Option (ByteArray × ℕ) := fun _ => none

/-- A path the glob finds, and what its round of the loop meets. -/
structure ChecksumRound where
  path : String
  /-- Whether asking for, or opening, what is no readable file raises. -/
  raises : Bool
  write : SidecarWrite

section generate

variable (sha : Digest)

/-- The text of a checksum file. -/
def sidecarText (bytes : ByteArray) : String := sha.hex bytes ++ "\n"

namespace SavedModels

/-- A checksum file of which some characters are written. -/
def writeSidecar (path : String) (bytes : ByteArray) (chars : ℕ) (s : SavedModels) :
    SavedModels where
  files := Function.update s.files (checksumPath path)
    (.file (String.ofList ((sidecarText sha bytes).toList.take chars)).toUTF8)
  recorded := Function.update s.recorded path (some (bytes, chars))

/-- The body of the loop. -/
def checksumArtifact (round : ChecksumRound) : Effect PyError SavedModels Unit := fun s =>
  match s.files round.path with
  | .file bytes =>
    match round.write with
    | .done => (.ok (), s.writeSidecar sha round.path bytes (sidecarText sha bytes).toList.length)
    | .torn chars => (.error .osError, s.writeSidecar sha round.path bytes chars)
    | .refused => (.error .osError, s)
  | _ => if round.raises then (.error .osError, s) else (.ok (), s)

/-- The loop. -/
def checksumArtifacts : List ChecksumRound → Effect PyError SavedModels Unit
  | [] => pure ()
  | round :: rounds => do
    checksumArtifact sha round
    checksumArtifacts rounds

/-- `ARTIFACT_GLOB`. -/
def isArtifact (path : String) : Bool := path.endsWith ".pkl"

/-- `generate_checksums`, over what is in the directory. -/
def generateChecksums (listing : List ChecksumRound) : Effect PyError SavedModels Unit :=
  checksumArtifacts sha (listing.filter fun round => isArtifact round.path)

end SavedModels

/-! ## What happens to the directory -/

/-- A path that is not that of a checksum file. -/
structure OtherPath where
  path : String
  other : ∀ artifact, path ≠ checksumPath artifact

/-- A file other than a checksum file is written, replaced or removed, by training or
by anybody else; or the checksums are generated. -/
inductive DeploymentEvent where
  | write (path : OtherPath) (entry : Entry)
  | generate (listing : List ChecksumRound)

/-- The directory, with everything that happens to it. -/
def deployment : Machine SavedModels DeploymentEvent Unit where
  step s event :=
    match event with
    | .write path entry => ({ s with files := Function.update s.files path.path entry }, ())
    | .generate listing => ((SavedModels.generateChecksums sha listing s).2, ())

/-- An artifact has the digest that was recorded of it, and that was recorded in full. -/
def SavedModels.Recorded (s : SavedModels) (path : String) : Prop :=
  ∃ bytes before chars, s.files path = .file bytes ∧ s.recorded path = some (before, chars) ∧
    64 ≤ chars ∧ sha bytes = sha before

end generate

/-! ## Reading a digest back -/

section digest

variable {sha : Digest}

theorem isHexDigit_of_mem_hex {bytes : ByteArray} {c : Char} (h : c ∈ (sha.hex bytes).toList) :
    ∃ n : Fin 16, c = Nat.digitChar n := by
  unfold Digest.hex hexdigest at h
  rw [String.toList_ofList, List.mem_flatMap] at h
  obtain ⟨b, -, hmem⟩ := h
  have hb := b.toNat_lt
  rcases List.mem_cons.mp hmem with heq | hmem
  · exact ⟨⟨b.toNat / 16, by omega⟩, heq⟩
  · exact ⟨⟨b.toNat % 16, by omega⟩, List.mem_singleton.mp hmem⟩

theorem length_hex (bytes : ByteArray) : (sha.hex bytes).toList.length = 64 := by
  have hpairs : ∀ digest : List UInt8, (digest.flatMap hexPair).length = 2 * digest.length := by
    intro digest
    induction digest with
    | nil => rfl
    | cons b digest ih =>
      rw [List.flatMap_cons, List.length_append, ih, List.length_cons]
      show 2 + _ = _
      omega
  unfold Digest.hex hexdigest
  rw [String.toList_ofList, hpairs, List.length_ofFn]

theorem hex_inj {bytes before : ByteArray} (h : sha.hex bytes = sha.hex before) :
    sha bytes = sha before :=
  List.ofFn_inj.mp (hexdigest_inj h)

/-- A digit is no space and no carriage return, and is in lower case. -/
theorem digitChar_plain (n : Fin 16) : isSpace (Nat.digitChar n) = false ∧
    Nat.digitChar n ≠ '\r' ∧ (Nat.digitChar n).toNat ≠ 0x212a ∧
    (Nat.digitChar n).toLower = Nat.digitChar n := by
  revert n
  decide

/-- A text of such digits is what is left of it when it is read and stripped. -/
theorem firstWord_of_digits {digits tail : List Char}
    (h : ∀ c ∈ digits, ∃ n : Fin 16, c = Nat.digitChar n) (htail : ∀ c ∈ tail, isSpace c = true) :
    firstWord (String.ofList (digits ++ tail)) = String.ofList digits := by
  have hdigit : ∀ c ∈ digits, isSpace c = false := by
    intro c hc
    obtain ⟨n, rfl⟩ := h c hc
    exact (digitChar_plain n).1
  have hkept : ∀ cs : List Char, (∀ c ∈ cs, isSpace c = false) → cs.dropWhile isSpace = cs := by
    intro cs hcs
    cases cs with
    | nil => rfl
    | cons c cs => exact List.dropWhile_cons_of_neg (by simp [hcs c List.mem_cons_self])
  have hstrip : stripList isSpace (digits ++ tail) = digits := by
    cases digits with
    | nil => exact (stripList_eq_nil_iff tail).mpr htail
    | cons d ds =>
      have hfront : (d :: ds ++ tail).dropWhile isSpace = d :: ds ++ tail :=
        List.dropWhile_cons_of_neg (by simp [hdigit d List.mem_cons_self])
      unfold stripList
      rw [hfront, List.reverse_append, List.dropWhile_append_of_pos fun c hc =>
        htail c (List.mem_reverse.mp hc), hkept _ fun c hc => hdigit c (List.mem_reverse.mp hc),
        List.reverse_reverse]
  unfold firstWord strip
  rw [String.toList_ofList, String.toList_ofList, hstrip, List.takeWhile_eq_self_iff.mpr]
  intro c hc
  rw [hdigit c hc]
  rfl

theorem lower_of_digits {digits : List Char}
    (h : ∀ c ∈ digits, ∃ n : Fin 16, c = Nat.digitChar n) :
    lower (String.ofList digits) = String.ofList digits := by
  unfold lower
  rw [String.toList_ofList]
  congr 1
  refine (List.map_congr_left fun c hc => ?_).trans (List.map_id digits)
  obtain ⟨n, rfl⟩ := h c hc
  obtain ⟨-, -, hkelvin, hlower⟩ := digitChar_plain n
  rw [if_neg hkelvin, hlower]
  rfl

theorem lower_take_hex (bytes : ByteArray) (chars : ℕ) :
    lower (String.ofList ((sha.hex bytes).toList.take chars)) =
      String.ofList ((sha.hex bytes).toList.take chars) :=
  lower_of_digits fun _ hc => isHexDigit_of_mem_hex (List.mem_of_mem_take hc)

theorem lower_hex (bytes : ByteArray) : lower (sha.hex bytes) = sha.hex bytes := by
  have h : lower (String.ofList ((sha.hex bytes).toList.take _)) = _ :=
    lower_take_hex bytes (sha.hex bytes).toList.length
  rwa [List.take_length, String.ofList_toList] at h

theorem hex_ne_empty (bytes : ByteArray) : sha.hex bytes ≠ "" := by
  intro hempty
  have h64 : (sha.hex bytes).toList.length = 64 := length_hex bytes
  rw [hempty] at h64
  exact absurd h64 (by decide)

/-- A digest is the beginning of another one exactly if it is all of it. -/
theorem hex_eq_take_iff {bytes before : ByteArray} {chars : ℕ} :
    sha.hex bytes = String.ofList ((sha.hex before).toList.take chars) ↔
      64 ≤ chars ∧ sha bytes = sha before := by
  constructor
  · intro h
    have hdigits : (sha.hex bytes).toList = (sha.hex before).toList.take chars := by
      rw [h, String.toList_ofList]
    have hlength : 64 ≤ chars := by
      have h64 := congrArg List.length hdigits
      rw [length_hex, List.length_take, length_hex] at h64
      omega
    rw [List.take_of_length_le (by rw [length_hex]; exact hlength)] at hdigits
    exact ⟨hlength, hex_inj (String.toList_injective hdigits)⟩
  · rintro ⟨hlength, hsame⟩
    rw [List.take_of_length_le (by rw [length_hex]; exact hlength), String.ofList_toList]
    unfold Digest.hex
    rw [hsame]

/-- The text read from a checksum file of which some characters were written. -/
theorem readText_sidecar (bytes : ByteArray) (chars : ℕ) :
    Python.readText (some (String.ofList ((sidecarText sha bytes).toList.take chars)).toUTF8) =
      .ok (String.ofList ((sidecarText sha bytes).toList.take chars)) := by
  rw [readText_toUTF8, String.toList_ofList, TextLines.universal_of_notMem]
  intro hmem
  have hmem := List.mem_of_mem_take hmem
  unfold sidecarText at hmem
  rw [String.toList_append, List.mem_append] at hmem
  rcases hmem with hhex | hnewline
  · obtain ⟨n, hn⟩ := isHexDigit_of_mem_hex hhex
    exact (digitChar_plain n).2.1 hn.symm
  · simp at hnewline

theorem firstWord_sidecar (bytes : ByteArray) (chars : ℕ) :
    firstWord (String.ofList ((sidecarText sha bytes).toList.take chars)) =
      String.ofList ((sha.hex bytes).toList.take chars) := by
  unfold sidecarText
  rw [String.toList_append, List.take_append]
  refine firstWord_of_digits (fun c hc => isHexDigit_of_mem_hex (List.mem_of_mem_take hc)) ?_
  intro c hc
  have hnewline : c ∈ "\n".toList := List.mem_of_mem_take hc
  obtain rfl : c = '\n' := by simpa using hnewline
  decide

end digest

/-! ## The checksum files -/

section directory

variable {sha : Digest} {s : SavedModels}

/-- What stands at the path of a checksum file is what was written there. -/
def SavedModels.Sidecars (sha : Digest) (s : SavedModels) : Prop :=
  ∀ artifact, s.files (checksumPath artifact) =
    match s.recorded artifact with
    | none => .missing
    | some (bytes, chars) =>
      .file (String.ofList ((sidecarText sha bytes).toList.take chars)).toUTF8

theorem checksumPath_inj {path path' : String} (h : checksumPath path = checksumPath path') :
    path = path' := (String.append_left_inj _).mp h

theorem SavedModels.Sidecars.writeSidecar (h : s.Sidecars sha) (path : String) (bytes : ByteArray)
    (chars : ℕ) : (s.writeSidecar sha path bytes chars).Sidecars sha := by
  intro artifact
  unfold SavedModels.writeSidecar
  dsimp only
  rcases eq_or_ne artifact path with rfl | hne
  · rw [Function.update_self, Function.update_self]
  · rw [Function.update_of_ne hne, Function.update_of_ne fun heq => hne (checksumPath_inj heq)]
    exact h artifact

theorem SavedModels.Sidecars.checksumArtifact (h : s.Sidecars sha) (round : ChecksumRound) :
    (SavedModels.checksumArtifact sha round s).2.Sidecars sha := by
  unfold SavedModels.checksumArtifact
  split
  · split
    · exact h.writeSidecar _ _ _
    · exact h.writeSidecar _ _ _
    · exact h
  · split <;> exact h

theorem SavedModels.Sidecars.checksumArtifacts (h : s.Sidecars sha) (rounds : List ChecksumRound) :
    (SavedModels.checksumArtifacts sha rounds s).2.Sidecars sha := by
  induction rounds generalizing s with
  | nil => exact h
  | cons round rounds ih =>
    have hround := h.checksumArtifact round
    rw [SavedModels.checksumArtifacts, Effect.bind_apply]
    split
    next t heq =>
      rw [heq] at hround
      exact ih hround
    next e t heq =>
      rw [heq] at hround
      exact hround

variable (sha) in
theorem sidecars_exec (es : List DeploymentEvent) :
    ((deployment sha).exec {} es).Sidecars sha := by
  refine @Machine.exec_history _ _ _ (deployment sha) (fun _ t => t.Sidecars sha) {} (fun _ => rfl)
    ?_ es
  intro _ event t h
  cases event with
  | generate listing => exact h.checksumArtifacts _
  | write path entry =>
    intro artifact
    show Function.update t.files path.path entry (checksumPath artifact) = _
    rw [Function.update_of_ne (path.other artifact).symm]
    exact h artifact

variable {Obj : Type} (rt : Runtime Obj)

/-- The runtime with this digest. -/
def Runtime.withDigest (sha : Digest) : Runtime Obj := { rt with sha256 := sha.hex }

/-- The loader finds the digest of an artifact as recorded exactly when it is. -/
theorem checksumMatches_iff (h : s.Sidecars sha) (path : String) :
    ChecksumMatches (rt.withDigest sha) s.files path ↔ s.Recorded sha path := by
  have hsidecar := h path
  unfold ChecksumMatches SavedModels.Recorded
  cases hrecorded : s.recorded path with
  | none =>
    rw [hrecorded] at hsidecar
    refine iff_of_false ?_ ?_
    · rintro ⟨recorded, actual, htext, -⟩
      rw [hsidecar] at htext
      exact nomatch htext
    · rintro ⟨bytes, before, chars, -, hnone, -⟩
      exact nomatch hnone
  | some made =>
    obtain ⟨before, chars⟩ := made
    rw [hrecorded] at hsidecar
    have hread : (s.files (checksumPath path)).readText =
        .ok (String.ofList ((sidecarText sha before).toList.take chars)) := by
      rw [hsidecar]
      exact readText_sidecar before chars
    constructor
    · rintro ⟨recorded, actual, htext, -, hactual, heq⟩
      obtain ⟨bytes, hbytes, rfl⟩ := computeSha256_ok_iff.mp hactual
      obtain rfl := Except.ok.inj (hread.symm.trans htext)
      rw [firstWord_sidecar, lower_take_hex] at heq
      obtain ⟨hlength, hsame⟩ := hex_eq_take_iff.mp ((lower_hex bytes).symm.trans heq)
      exact ⟨bytes, before, chars, readBytes_ok_iff.mp hbytes, rfl, hlength, hsame⟩
    · rintro ⟨bytes, before', chars', hfile, hmade, hlength, hsame⟩
      obtain ⟨rfl, rfl⟩ := Prod.mk.inj (Option.some.inj hmade)
      have hwhole := hex_eq_take_iff.mpr ⟨hlength, hsame⟩
      refine ⟨_, sha.hex bytes, hread, ?_, ?_, ?_⟩
      · rw [firstWord_sidecar, ← hwhole]
        exact hex_ne_empty bytes
      · exact computeSha256_ok_iff.mpr ⟨bytes, readBytes_ok_iff.mpr hfile, rfl⟩
      · rw [firstWord_sidecar, ← hwhole]

/-- The rest of what a bundle needs of its files. -/
structure Loadable (fs : FileSystem) (config : RuntimeModelBundleConfig)
    (model labelEncoder : Obj) : Prop where
  columns : ColumnsMatch rt fs config.featureColumnsPath
  modelLoads : rt.joblibLoad (fs config.modelPath) = .ok model
  encoderLoads : rt.joblibLoad (fs config.encoderPath) = .ok labelEncoder
  names : NamesMatch rt model
  classes : rt.hasClasses labelEncoder = .ok true

variable {rt}

theorem artifacts_iff (h : s.Sidecars sha) (config : RuntimeModelBundleConfig)
    (model labelEncoder : Obj) :
    Artifacts (rt.withDigest sha) s.files config.modelPath config.encoderPath
        config.featureColumnsPath model labelEncoder ↔
      s.Recorded sha config.modelPath ∧ s.Recorded sha config.encoderPath ∧
        Loadable rt s.files config model labelEncoder := by
  constructor
  · rintro ⟨hcolumns, hmodel, hencoder, hloads, hloads', hnames, hclasses⟩
    exact ⟨(checksumMatches_iff rt h _).mp hmodel, (checksumMatches_iff rt h _).mp hencoder,
      hcolumns, hloads, hloads', hnames, hclasses⟩
  · rintro ⟨hmodel, hencoder, hcolumns, hloads, hloads', hnames, hclasses⟩
    exact ⟨hcolumns, (checksumMatches_iff rt h _).mpr hmodel,
      (checksumMatches_iff rt h _).mpr hencoder, hloads, hloads', hnames, hclasses⟩

end directory

/-- Whatever has happened to the directory: nothing is deserialised unless both
artifacts of the bundle have the digests that were last recorded of them, in full; and
a bundle that is constructed is enabled exactly if that is so and they deserialise to a
model and an encoder that fit, which it then has. -/
theorem loads_as_recorded {Obj : Type} (rt : Runtime Obj) (sha : Digest)
    (es : List DeploymentEvent) (config : RuntimeModelBundleConfig) :
    let s := (deployment sha).exec {} es
    let Sound := s.Recorded sha config.modelPath ∧ s.Recorded sha config.encoderPath
    let (outcome, steps) := RuntimeModelBundle.init (rt.withDigest sha) s.files config []
    (∀ path, .loaded path ∈ steps → path ∈ [config.modelPath, config.encoderPath] ∧ Sound) ∧
      ∀ bundle, outcome = .ok bundle →
        (bundle.enabled = true ↔
          Sound ∧ ∃ model labelEncoder, Loadable rt s.files config model labelEncoder) ∧
        ∀ model labelEncoder, Loadable rt s.files config model labelEncoder →
          bundle.enabled = true →
            bundle.model = some model ∧ bundle.labelEncoder = some labelEncoder := by
  have hsidecars := sidecars_exec sha es
  generalize (deployment sha).exec {} es = s at hsidecars
  dsimp only
  obtain ⟨steps, hfirst, hsteps⟩ := bundle_steps (rt.withDigest sha) s.files config []
  cases hinit : RuntimeModelBundle.init (rt.withDigest sha) s.files config [] with
  | mk outcome steps' =>
    rw [hinit] at hsteps
    obtain rfl : steps' = steps := hsteps
    refine ⟨fun path hpath => ?_, ?_⟩
    · obtain ⟨before, after, hsplit⟩ := List.append_of_mem hpath
      obtain ⟨hmem, hverified⟩ := hfirst before path after hsplit
      refine ⟨hmem, (checksumMatches_iff rt hsidecars _).mp (hverified _ ?_).2,
        (checksumMatches_iff rt hsidecars _).mp (hverified _ ?_).2⟩
      · exact List.mem_cons_self
      · exact List.mem_cons_of_mem _ List.mem_cons_self
    · rintro bundle rfl
      have hharmless := harmless_of_bundle_returns hinit
      obtain ⟨bundle', steps'', hreturns, htold, -⟩ := bundle_returns hharmless []
      obtain rfl : bundle = bundle' := by
        have houtcome := congrArg Prod.fst (hinit.symm.trans hreturns)
        exact Except.ok.inj houtcome
      have husable : Usable (rt.withDigest sha) s.files config ↔ _ :=
        exists_congr fun model => exists_congr fun labelEncoder =>
          artifacts_iff hsidecars config model labelEncoder
      constructor
      · rw [htold.enabled, husable]
        constructor
        · rintro ⟨model, labelEncoder, hmodel, hencoder, hloads⟩
          exact ⟨⟨hmodel, hencoder⟩, model, labelEncoder, hloads⟩
        · rintro ⟨⟨hmodel, hencoder⟩, model, labelEncoder, hloads⟩
          exact ⟨model, labelEncoder, hmodel, hencoder, hloads⟩
      · intro model labelEncoder hloads henabled
        obtain ⟨model', labelEncoder', hmodel, hencoder, hartifacts⟩ := htold.loaded henabled
        have hsame := Except.ok.inj (hartifacts.modelLoads.symm.trans hloads.modelLoads)
        have hsame' := Except.ok.inj (hartifacts.encoderLoads.symm.trans hloads.encoderLoads)
        rw [hmodel, hencoder, hsame, hsame']
        exact ⟨rfl, rfl⟩

end SmartIDS.ML
