import EventWorker.Proofs.Document.Spelling
import EventWorker.Resource.Volume

/-!
# Volumes and mounts as they are written

A volume and a mount are spelled by what they are written as.

Main statements: `Volume.faithful_codec`, `VolumeMount.faithful_codec`.
-/

namespace EventWorker.Resource

open Document Decoder

variable {levels : Nat}

/-- A text, written where there is one. -/
theorem maybeText (value : Option String) :
    ∀ s ∈ value, Spells Decoder.text levels (.text s) s ∧ Document.text s ≠ .null :=
  fun s _ => ⟨.text s, fun h => by cases h⟩

theorem maybeFlag (value : Option Bool) :
    ∀ b ∈ value, Spells Decoder.flag levels (.bool b) b ∧ Document.bool b ≠ .null :=
  fun b _ => ⟨.flag b, fun h => by cases h⟩

theorem maybeInt32 (value : Option Int32) :
    ∀ n ∈ value, Spells Decoder.int32 levels (.int n.toInt) n ∧ Document.int n.toInt ≠ .null :=
  fun n _ => ⟨.int32 n, fun h => by cases h⟩

/-- A text that is always written. -/
theorem ownText (s : String) : Spells (orEmpty Decoder.text) levels (.text s) s :=
  .orEmpty (.text s) fun h => by cases h

/-- A record is not null. -/
theorem present_ne_null (fields : List (String × Option Document)) :
    Document.present fields ≠ .null :=
  fun h => by cases h

theorem HostPath.spells (h : HostPath) : Spells HostPath.decode (levels + 1) h.toDocument h :=
  .present ⟨by decide, by decide⟩ rfl (fun _ _ h => by cases h) <|
    .field _ (ownText h.path) (fun _ => rfl) <|
    .maybe _ (maybeText h.kind) (fun _ _ => rfl) rfl <|
    .nil _

theorem EmptyDir.spells (e : EmptyDir) : Spells EmptyDir.decode (levels + 1) e.toDocument e :=
  .present ⟨by decide, by decide⟩ rfl (fun _ _ h => by cases h) <|
    .maybe _ (maybeText e.medium) (fun _ _ => rfl) rfl <|
    .maybe _ (maybeText e.sizeLimit) (fun _ _ => rfl) rfl <|
    .nil _

theorem KeyToPath.spells (k : KeyToPath) : Spells KeyToPath.decode (levels + 1) k.toDocument k :=
  .present ⟨by decide, by decide⟩ rfl (fun _ _ h => by cases h) <|
    .field _ (ownText k.key) (fun _ => rfl) <|
    .field _ (ownText k.path) (fun _ => rfl) <|
    .maybe _ (maybeInt32 k.mode) (fun _ _ => rfl) rfl <|
    .nil _

/-- The field for the name is called differently for config maps and for secrets. -/
theorem KeyedFiles.spells (f : KeyedFiles) {nameField : String}
    (hname : nameField = "name" ∨ nameField = "secretName") :
    Spells (KeyedFiles.decode nameField) (levels + 3) (f.toDocument nameField) f := by
  have hitems : ∀ items ∈ f.items, Spells (listOf KeyToPath.decode) (levels + 2)
      (.list (items.map KeyToPath.toDocument)) items ∧
        Document.list (items.map KeyToPath.toDocument) ≠ .null :=
    fun items _ => ⟨.listOf fun k _ => k.spells, fun h => by cases h⟩
  rcases hname with rfl | rfl
  all_goals
    exact .present ⟨by decide, by decide⟩ rfl (fun _ _ h => by cases h) <|
      .maybe _ (maybeText f.name) (fun _ _ => rfl) rfl <|
      .maybe _ hitems (fun _ _ => rfl) rfl <|
      .maybe _ (maybeFlag f.mayBeAbsent) (fun _ _ => rfl) rfl <|
      .maybe _ (maybeInt32 f.defaultMode) (fun _ _ => rfl) rfl <|
      .nil _

theorem ClaimSource.spells (c : ClaimSource) : Spells ClaimSource.decode (levels + 1) c.toDocument c :=
  .present ⟨by decide, by decide⟩ rfl (fun _ _ h => by cases h) <|
    .field _ (ownText c.claimName) (fun _ => rfl) <|
    .maybe _ (maybeFlag c.readOnly) (fun _ _ => rfl) rfl <|
    .nil _

theorem NetworkFiles.spells (n : NetworkFiles) :
    Spells NetworkFiles.decode (levels + 1) n.toDocument n :=
  .present ⟨by decide, by decide⟩ rfl (fun _ _ h => by cases h) <|
    .field _ (ownText n.server) (fun _ => rfl) <|
    .field _ (ownText n.path) (fun _ => rfl) <|
    .maybe _ (maybeFlag n.readOnly) (fun _ _ => rfl) rfl <|
    .nil _

/-- **A volume is spelled by what it is written as.** -/
theorem Volume.faithful_codec : Volume.codec.Faithful (levels + 4) := fun v =>
  .present ⟨by decide, by decide⟩ rfl (fun _ _ h => by cases h) <|
    .field _ (ownText v.name) (fun _ => rfl) <|
    .maybe _ (fun h _ => ⟨h.spells, present_ne_null _⟩) (fun _ _ => rfl) rfl <|
    .maybe _ (fun e _ => ⟨e.spells, present_ne_null _⟩) (fun _ _ => rfl) rfl <|
    .maybe _ (fun f _ => ⟨f.spells (.inl rfl), present_ne_null _⟩) (fun _ _ => rfl) rfl <|
    .maybe _ (fun f _ => ⟨f.spells (.inr rfl), present_ne_null _⟩) (fun _ _ => rfl) rfl <|
    .maybe _ (fun c _ => ⟨c.spells, present_ne_null _⟩) (fun _ _ => rfl) rfl <|
    .maybe _ (fun n _ => ⟨n.spells, present_ne_null _⟩) (fun _ _ => rfl) rfl <|
    .nil _

/-- **A mount is spelled by what it is written as.** -/
theorem VolumeMount.faithful_codec : VolumeMount.codec.Faithful (levels + 1) := fun m =>
  .present ⟨by decide, by decide⟩ rfl (fun _ _ h => by cases h) <|
    .field _ (ownText m.name) (fun _ => rfl) <|
    .field _ (ownText m.mountPath) (fun _ => rfl) <|
    .maybe _ (maybeFlag m.readOnly) (fun _ _ => rfl) rfl <|
    .maybe _ (maybeText m.subPath) (fun _ _ => rfl) rfl <|
    .maybe _ (maybeText m.subPathExpr) (fun _ _ => rfl) rfl <|
    .maybe _ (maybeText m.mountPropagation) (fun _ _ => rfl) rfl <|
    .nil _

end EventWorker.Resource
