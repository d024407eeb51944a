import EventWorker.Proofs.Document.Fields
import EventWorker.Proofs.Document.JsonTyped
import EventWorker.Proofs.Table
import EventWorker.Proofs.Text.Blank
import EventWorker.Proofs.Text.Utf8
import EventWorker.Project

/-!
# Projects from secrets

A project is read from a secret entry by entry. What an entry says is the text of its bytes without the
blanks around it (`entry?`), and each of the fifteen entries that are looked at (`SecretKey`) gives one
setting of the project and no other, so that two secrets that differ in one entry give projects that differ
in its setting at most (`takeSetting`). Nothing is permitted unless the entry of the permission says so.

Main statement: `ofSecret_fieldwise`.
-/

namespace EventWorker

open Document

/-- The entries of a secret that a project is read from. -/
inductive SecretKey where
  | name | namespaceName | cloneUrl | sshKey | token
  | cacheStorageClass | buildStorageClass
  | allowPrivilegedJobs | allowHostMounts
  | sidecarImage | requestedCpu | requestedMemory | limitCpu | limitMemory
  | secrets
  deriving DecidableEq

def SecretKey.text : SecretKey → String
  | name => "name"
  | namespaceName => "namespace"
  | cloneUrl => "cloneURL"
  | sshKey => "sshKey"
  | token => "token"
  | cacheStorageClass => "kubernetes.cacheStorageClass"
  | buildStorageClass => "kubernetes.buildStorageClass"
  | allowPrivilegedJobs => "allowPrivilegedJobs"
  | allowHostMounts => "allowHostMounts"
  | sidecarImage => "vcsSidecar"
  | requestedCpu => "vcsSidecarResources.requests.cpu"
  | requestedMemory => "vcsSidecarResources.requests.memory"
  | limitCpu => "vcsSidecarResources.limits.cpu"
  | limitMemory => "vcsSidecarResources.limits.memory"
  | secrets => "secrets"

theorem SecretKey.forall_iff {P : SecretKey → Prop} : (∀ k, P k) ↔
    P .name ∧ P .namespaceName ∧ P .cloneUrl ∧ P .sshKey ∧ P .token ∧ P .cacheStorageClass ∧
      P .buildStorageClass ∧ P .allowPrivilegedJobs ∧ P .allowHostMounts ∧ P .sidecarImage ∧
      P .requestedCpu ∧ P .requestedMemory ∧ P .limitCpu ∧ P .limitMemory ∧ P .secrets := by
  constructor
  · intro h
    simp [h]
  · rintro ⟨_, _, _, _, _, _, _, _, _, _, _, _, _, _, _⟩ k
    cases k <;> assumption

theorem SecretKey.text_injective : Function.Injective SecretKey.text := by
  intro k l h
  cases k <;> cases l <;> first | rfl | exact absurd h (by decide)

namespace Project

/-- The project with the one setting of another that the entry is for. -/
def takeSetting (p other : Project) : SecretKey → Project
  | .name => { p with name := other.name }
  | .namespaceName => { p with namespaceName := other.namespaceName }
  | .cloneUrl => { p with repo.cloneUrl := other.repo.cloneUrl }
  | .sshKey => { p with repo.sshKey := other.repo.sshKey }
  | .token => { p with repo.token := other.repo.token }
  | .cacheStorageClass => { p with cacheStorageClass := other.cacheStorageClass }
  | .buildStorageClass => { p with buildStorageClass := other.buildStorageClass }
  | .allowPrivilegedJobs => { p with allowPrivilegedJobs := other.allowPrivilegedJobs }
  | .allowHostMounts => { p with allowHostMounts := other.allowHostMounts }
  | .sidecarImage => { p with sidecar.image := other.sidecar.image }
  | .requestedCpu => { p with sidecar.requests.cpu := other.sidecar.requests.cpu }
  | .requestedMemory => { p with sidecar.requests.memory := other.sidecar.requests.memory }
  | .limitCpu => { p with sidecar.limits.cpu := other.sidecar.limits.cpu }
  | .limitMemory => { p with sidecar.limits.memory := other.sidecar.limits.memory }
  | .secrets => { p with secrets := other.secrets }

/-! ### Entries -/

section

variable {data data' : Table (List UInt8)} {key : String}

/-- The entry is there, not blank, and has this text without the blanks around it. -/
def Says (data : Table (List UInt8)) (key s : String) : Prop :=
  ∃ bytes, data.get? key = some bytes ∧ Text.isBlankText (Text.decodeLossy bytes) = false ∧
    Text.trim (Text.decodeLossy bytes) = s

theorem entry?_eq_some_iff {s : String} : entry? data key = some s ↔ Says data key s := by
  unfold entry?
  rw [Option.bind_eq_some_iff]
  constructor
  · rintro ⟨bytes, hget, htrim⟩
    cases hblank : Text.isBlankText (Text.decodeLossy bytes) with
    | true =>
      rw [Text.trimmed?_of_blank hblank] at htrim
      cases htrim
    | false =>
      rw [Text.trimmed?_of_not_blank hblank] at htrim
      exact ⟨bytes, hget, hblank, Option.some.inj htrim⟩
  · rintro ⟨bytes, hget, hblank, rfl⟩
    exact ⟨bytes, hget, Text.trimmed?_of_not_blank hblank⟩

theorem isGranted_iff : isGranted data key = true ↔ Says data key "true" := by
  rw [isGranted, beq_iff_eq, entry?_eq_some_iff]

theorem entry?_congr (h : data.get? key = data'.get? key) : entry? data key = entry? data' key := by
  unfold entry?
  rw [h]

theorem entry?_insert (bytes : List UInt8) (key' : String) : entry? (data.insert key bytes) key' =
    if key = key' then Text.trimmed? (Text.decodeLossy bytes) else entry? data key' := by
  unfold entry?
  rw [Table.get?_insert]
  by_cases hkey : key = key'
  · rw [if_pos hkey, if_pos hkey, Option.bind_some]
  · rw [if_neg hkey, if_neg hkey]

/-- A blank entry is as good as none. -/
theorem entry?_insert_of_blank {bytes : List UInt8} (h : Text.isBlankText (Text.decodeLossy bytes) = true)
    (key' : String) : entry? (data.insert key bytes) key' = entry? (data.erase key) key' := by
  rw [entry?_insert, Text.trimmed?_of_blank h]
  unfold entry?
  rw [Table.get?_erase]
  by_cases hkey : key = key'
  · rw [if_pos hkey, if_pos hkey.symm, Option.bind_none]
  · rw [if_neg hkey, if_neg (Ne.symm hkey)]

/-- White space around an entry makes no difference, even where the entry is no text in between. -/
theorem entry?_insert_between {front back : String} (hfront : Text.isBlankText front = true)
    (hback : Text.isBlankText back = true) (bytes : List UInt8) (key' : String) :
    entry? (data.insert key (Text.bytesOf front ++ bytes ++ Text.bytesOf back)) key' =
      entry? (data.insert key bytes) key' := by
  rw [entry?_insert, entry?_insert, Text.decodeLossy_between, Text.trimmed?_between hfront hback]

end

/-! ### Secrets -/

/-- The text is a JSON object of texts. -/
def IsTextObject (s : String) : Prop :=
  ∃ fields : List (String × String), ofJson? s = some (.object (fields.map fun f => (f.1, .text f.2)))

/-- Secrets are taken from a JSON object of texts, and from nothing else. -/
theorem exists_secretTexts?_eq_some_iff {s : String} :
    (∃ secrets, secretTexts? s = some secrets) ↔ IsTextObject s := by
  simp only [secretTexts?, Decoder.ofJson, Except.toOption_eq_some_iff]
  cases hjson : ofJson? s with
  | none => simp [IsTextObject, hjson]
  | some d =>
    have hlevels : Decoder.jsonTerms.levels ≠ 0 := by decide
    simp [IsTextObject, hjson, (typed_of_ofJson? hjson).tableOf_text_eq_ok_iff hlevels]

/-- The secrets of the project, if they can be read. -/
def ownSecrets? (data : Table (List UInt8)) : Option (Table String) :=
  match entry? data "secrets" with
  | none => some {}
  | some s => secretTexts? s

theorem ownSecrets?_congr {data data' : Table (List UInt8)}
    (h : entry? data' "secrets" = entry? data "secrets") : ownSecrets? data' = ownSecrets? data := by
  rw [ownSecrets?, ownSecrets?, h]

theorem ownSecrets?_of_given {data : Table (List UInt8)} {s : String} (h : entry? data "secrets" = some s) :
    ownSecrets? data = secretTexts? s := by
  rw [ownSecrets?, h]

theorem ownSecrets?_eq_none_iff {data : Table (List UInt8)} :
    ownSecrets? data = none ↔ ∃ s, Says data "secrets" s ∧ ¬ IsTextObject s := by
  simp only [← entry?_eq_some_iff, ← exists_secretTexts?_eq_some_iff]
  rw [ownSecrets?]
  cases entry? data "secrets" with
  | none => simp
  | some s => simp [Option.eq_none_iff_forall_ne_some]

/-! ### Settings -/

variable {id defaultNamespace : String} {data data' : Table (List UInt8)} {p p' : Project}

/-- What the other entries make of a project. -/
def ofEntries (id : String) (data : Table (List UInt8)) (defaultNamespace : String) (secrets : Table String) :
    Project :=
  let get := entry? data
  { id
    name := (get "name").getD id
    namespaceName := (get "namespace").getD defaultNamespace
    secrets
    repo := { cloneUrl := get "cloneURL", sshKey := get "sshKey", token := get "token" }
    sidecar := {
      image := (get "vcsSidecar").getD defaultSidecarImage
      requests := { cpu := get "vcsSidecarResources.requests.cpu",
                    memory := get "vcsSidecarResources.requests.memory" }
      limits := { cpu := get "vcsSidecarResources.limits.cpu",
                  memory := get "vcsSidecarResources.limits.memory" } }
    cacheStorageClass := get "kubernetes.cacheStorageClass"
    buildStorageClass := get "kubernetes.buildStorageClass"
    allowPrivilegedJobs := isGranted data "allowPrivilegedJobs"
    allowHostMounts := isGranted data "allowHostMounts" }

theorem ofSecret_eq : ofSecret id data defaultNamespace =
    match ownSecrets? data with
    | none => .error (.rejected ("project '" ++ id ++ "' has invalid secrets: not an object of texts"))
    | some secrets => .ok (ofEntries id data defaultNamespace secrets) := by
  rw [ownSecrets?, ofSecret]
  dsimp only
  cases entry? data "secrets" with
  | none => rfl
  | some s =>
    dsimp only
    cases secretTexts? s <;> rfl

theorem ofSecret_eq_ok_iff : ofSecret id data defaultNamespace = .ok p ↔
    ∃ secrets, ownSecrets? data = some secrets ∧ ofEntries id data defaultNamespace secrets = p := by
  rw [ofSecret_eq]
  cases ownSecrets? data <;> simp

theorem exists_ofSecret_eq_error_iff :
    (∃ e, ofSecret id data defaultNamespace = .error e) ↔ ∃ s, Says data "secrets" s ∧ ¬ IsTextObject s := by
  rw [← ownSecrets?_eq_none_iff, ofSecret_eq]
  cases ownSecrets? data <;> simp

/-- A project is what the entries of its secret say. -/
theorem ofSecret_congr (h : ∀ k : SecretKey, entry? data k.text = entry? data' k.text) :
    ofSecret id data defaultNamespace = ofSecret id data' defaultNamespace := by
  simp only [SecretKey.forall_iff, SecretKey.text] at h
  simp only [ofSecret, isGranted, h]

/-- Where only one entry differs, nothing but its setting does. -/
theorem eq_takeSetting {k : SecretKey}
    (h : ∀ l : SecretKey, l ≠ k → entry? data' l.text = entry? data l.text)
    (hp : ofSecret id data defaultNamespace = .ok p) (hp' : ofSecret id data' defaultNamespace = .ok p') :
    p' = p.takeSetting p' k := by
  obtain ⟨secrets, hown, rfl⟩ := ofSecret_eq_ok_iff.1 hp
  obtain ⟨secrets', hown', rfl⟩ := ofSecret_eq_ok_iff.1 hp'
  have hsecrets : k ≠ .secrets → secrets' = secrets := by
    intro hk
    rw [ownSecrets?_congr (h .secrets (Ne.symm hk)), hown] at hown'
    exact (Option.some.inj hown').symm
  clear hp hp' hown hown'
  simp only [SecretKey.forall_iff, SecretKey.text] at h
  -- each setting has been read from one entry, which is the one that differs or is the same in both
  cases k <;> simp_all [ofEntries, takeSetting, isGranted]

/-- **A project is read from its secret entry by entry, and nothing is permitted by default.**

It cannot be read only where the secrets are given and are no JSON object of texts. Two secrets that agree but
for one entry give projects that agree but for its setting. A blank entry is as good as none, white space
around an entry makes no difference, and neither does any entry that is not looked at. A permission is given
by the word `true` in its own entry. -/
theorem ofSecret_fieldwise (id defaultNamespace : String) (data : Table (List UInt8)) :
    ((∃ e, ofSecret id data defaultNamespace = .error e) ↔
      ∃ s, Says data "secrets" s ∧ ¬ IsTextObject s) ∧
    (∀ (k : SecretKey) (data' : Table (List UInt8)) (p p' : Project),
      (∀ l : SecretKey, l ≠ k → data'.get? l.text = data.get? l.text) →
      ofSecret id data defaultNamespace = .ok p → ofSecret id data' defaultNamespace = .ok p' →
      p' = p.takeSetting p' k) ∧
    (∀ key bytes, Text.isBlankText (Text.decodeLossy bytes) = true →
      ofSecret id (data.insert key bytes) defaultNamespace =
        ofSecret id (data.erase key) defaultNamespace) ∧
    (∀ key bytes front back, Text.isBlankText front = true → Text.isBlankText back = true →
      ofSecret id (data.insert key (Text.bytesOf front ++ bytes ++ Text.bytesOf back)) defaultNamespace =
        ofSecret id (data.insert key bytes) defaultNamespace) ∧
    (∀ data' : Table (List UInt8), (∀ k : SecretKey, data'.get? k.text = data.get? k.text) →
      ofSecret id data' defaultNamespace = ofSecret id data defaultNamespace) ∧
    ∀ p, ofSecret id data defaultNamespace = .ok p →
      (p.allowPrivilegedJobs = true ↔ Says data "allowPrivilegedJobs" "true") ∧
      (p.allowHostMounts = true ↔ Says data "allowHostMounts" "true") := by
  refine ⟨exists_ofSecret_eq_error_iff, ?_, ?_, ?_, ?_, ?_⟩
  · intro k data' p p' hagree hp hp'
    exact eq_takeSetting (fun l hl => entry?_congr (hagree l hl)) hp hp'
  · intro key bytes hblank
    exact ofSecret_congr fun k => entry?_insert_of_blank hblank k.text
  · intro key bytes front back hfront hback
    exact ofSecret_congr fun k => entry?_insert_between hfront hback bytes k.text
  · intro data' hagree
    exact ofSecret_congr fun k => entry?_congr (hagree k)
  · intro p hp
    obtain ⟨secrets, -, rfl⟩ := ofSecret_eq_ok_iff.1 hp
    exact ⟨isGranted_iff, isGranted_iff⟩

/-- The project has a secret and may run privileged jobs. What is remarked there is no text. -/
def sampleSecret : Table (List UInt8) :=
  ((Table.empty.insert "secrets" (Text.bytesOf "\x7b\"K\": \"v\"\x7d")).insert "allowPrivilegedJobs"
    (Text.bytesOf " true\n")).insert "remark" [0xFF]

theorem entry?_sampleSecret : entry? sampleSecret "secrets" = some "\x7b\"K\": \"v\"\x7d" ∧
    entry? sampleSecret "allowPrivilegedJobs" = some "true" ∧
    entry? sampleSecret "allowHostMounts" = none := by
  simp only [sampleSecret, entry?_insert, Text.decodeLossy_bytesOf]
  decide

theorem ofSecret_fieldwise_sampleSecret :
    (∃ e, ofSecret "p1" (sampleSecret.insert "secrets" (Text.bytesOf "[]")) "ferry" = .error e) ∧
    (∃ p p', ofSecret "p1" sampleSecret "ferry" = .ok p ∧
      ofSecret "p1" (sampleSecret.insert "namespace" (Text.bytesOf "ci")) "ferry" = .ok p' ∧
      p' = p.takeSetting p' .namespaceName ∧ p.allowPrivilegedJobs = true ∧ ¬ p.allowHostMounts = true) ∧
    ofSecret "p1" (sampleSecret.insert "token" (Text.bytesOf "\u00a0\n")) "ferry" =
      ofSecret "p1" (sampleSecret.erase "token") "ferry" ∧
    ofSecret "p1" (sampleSecret.insert "token"
        (Text.bytesOf " " ++ [0xE2, 0x80] ++ Text.bytesOf "\u2003")) "ferry" =
      ofSecret "p1" (sampleSecret.insert "token" [0xE2, 0x80]) "ferry" ∧
    ofSecret "p1" (sampleSecret.erase "remark") "ferry" = ofSecret "p1" sampleSecret "ferry" := by
  obtain ⟨hsecrets, hprivileged, hmounts⟩ := entry?_sampleSecret
  have hread : secretTexts? "\x7b\"K\": \"v\"\x7d" = some (.ofList [("K", "v")]) := by decide +kernel
  have hsecrets' : entry? (sampleSecret.insert "namespace" (Text.bytesOf "ci")) "secrets" =
      some "\x7b\"K\": \"v\"\x7d" := by
    rw [entry?_insert, if_neg (by decide), hsecrets]
  have hp : ofSecret "p1" sampleSecret "ferry" = _ :=
    ofSecret_eq_ok_iff.2 ⟨_, (ownSecrets?_of_given hsecrets).trans hread, rfl⟩
  have hp' : ofSecret "p1" (sampleSecret.insert "namespace" (Text.bytesOf "ci")) "ferry" = _ :=
    ofSecret_eq_ok_iff.2 ⟨_, (ownSecrets?_of_given hsecrets').trans hread, rfl⟩
  obtain ⟨-, hframe, hblank, hpadded, hunknown, hgranted⟩ := ofSecret_fieldwise "p1" "ferry" sampleSecret
  refine ⟨?_, ⟨_, _, hp, hp', ?_, ?_, ?_⟩, ?_, ?_, ?_⟩
  · refine (ofSecret_fieldwise _ _ _).1.2 ⟨"[]", entry?_eq_some_iff.1 ?_, ?_⟩
    · rw [entry?_insert, if_pos rfl, Text.decodeLossy_bytesOf]
      decide
    · intro hobject
      obtain ⟨secrets, hlist⟩ := exists_secretTexts?_eq_some_iff.2 hobject
      have hnone : secretTexts? "[]" = none := by decide +kernel
      rw [hnone] at hlist
      cases hlist
  · refine hframe .namespaceName _ _ _ (fun l hl => ?_) hp hp'
    have hne : SecretKey.namespaceName.text ≠ l.text := fun heq => hl (SecretKey.text_injective heq).symm
    exact (Table.get?_insert ..).trans (if_neg hne)
  · exact (hgranted _ hp).1.2 (entry?_eq_some_iff.1 hprivileged)
  · intro hgrant
    have hsays := entry?_eq_some_iff.2 ((hgranted _ hp).2.1 hgrant)
    rw [hmounts] at hsays
    cases hsays
  · refine hblank "token" (Text.bytesOf "\u00a0\n") ?_
    rw [Text.decodeLossy_bytesOf]
    decide
  · exact hpadded "token" [0xE2, 0x80] " " "\u2003" (by decide) (by decide)
  · refine hunknown _ fun k => ?_
    rw [Table.get?_erase, if_neg]
    cases k <;> decide

end Project

end EventWorker
