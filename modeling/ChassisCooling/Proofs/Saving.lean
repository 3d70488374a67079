import ChassisCooling.Proofs.Bystanders
import ChassisCooling.Proofs.Cleanup
import ChassisCooling.Proofs.Omissions
import ChassisCooling.Proofs.Parents
import ChassisCooling.Settings.File

/-! # Settings that are saved

Settings that have been saved are what is loaded, and a save that fails leaves what was there. Both
hold unless the file that is written first is reached by way of the path itself.
-/

namespace ChassisCooling.Files.Disk

open Calendar

variable {d d' : Disk} {path source : Path} {id handle : FileId} {bytes : List UInt8}

theorem IsSound.lt_of_lookup (sound : d.IsSound) (found : d.lookup path = .ok (.file id)) :
    id < d.contents.length := by
  obtain ⟨n, e, -, -, file⟩ := ends_of_lookup found
  exact sound _ (mem_of_node? file) id rfl

theorem content_of_lookup (found : d.lookup path = .ok (.file id)) :
    d.content path = some (d.bytes id) :=
  content_eq_some_iff.mpr ⟨id, found, rfl⟩

/-- Writing a file anew changes no path that leads to another one. -/
theorem content_of_create (sound : d.IsSound) (created : d.create source = .ok (id, d'))
    (elsewhere : d'.lookup path ≠ .ok (.file id)) (bytes : List UInt8) :
    (d'.appendTo id bytes).content path = d.content path := by
  obtain ⟨⟨id', d₀⟩, opened, cleared⟩ := ok_of_bind created
  cases cleared
  have same : ((d₀.clear id).appendTo id bytes).lookup path = d₀.lookup path :=
    lookup_congr rfl rfl
  have cleared : (d₀.clear id).lookup path = d₀.lookup path := lookup_congr rfl rfl
  rw [cleared] at elsewhere
  apply Option.ext
  intro held
  rw [content_eq_some_iff, content_eq_some_iff, same]
  apply exists_congr
  intro other
  by_cases apart : other = id
  · subst apart
    constructor
    · rintro ⟨found, -⟩
      exact absurd found elsewhere
    · rintro ⟨found, -⟩
      exact absurd (lookup_of_extends (extends_of_openAppend opened) found) elsewhere
  · rw [lookup_openAppend_iff opened apart]
    apply and_congr_right
    intro found
    rw [bytes_appendTo_of_ne apart, bytes_of_create created (sound.lt_of_lookup found) apart]

/-- A path that leads to the file that is written anew holds what has been written of it. -/
theorem content_of_create_self (sound : d.IsSound) (created : d.create source = .ok (id, d'))
    (found : d'.lookup path = .ok (.file id)) (bytes : List UInt8) :
    (d'.appendTo id bytes).content path = some bytes := by
  obtain ⟨held, empty⟩ := bytes_of_create_self sound created
  have same : (d'.appendTo id bytes).lookup path = d'.lookup path := lookup_congr rfl rfl
  rw [content_of_lookup (same.trans found), bytes_appendTo held, empty, List.nil_append]

/-- A file that has been written beside a path and moved there is what the path leads to, unless the
way to the file came by the path's own name: then the path leads to no file. -/
theorem lookup_of_replaced {body ending : String} (segment : Path.IsSegment (body ++ "." ++ ending))
    (plain : '.' ∉ ending.toList)
    (written : d.lookup (Path.withExtension path (body ++ "." ++ ending)) = .ok (.file id))
    (done : d.rename (Path.withExtension path (body ++ "." ++ ending)) path = .ok d') :
    (¬ d.PassesBy (Path.withExtension path (body ++ "." ++ ending)) path →
      d'.lookup path = .ok (.file id)) ∧
    (d.PassesBy (Path.withExtension path (body ++ "." ++ ending)) path →
      ∀ id', d'.lookup path ≠ .ok (.file id')) := by
  obtain ⟨old, new, -, -, isNew, unslashed, -, last, -, -⟩ := moved_of_rename done
  have noDot : new.name ≠ "." := fun dot => isNew.noDot (beq_iff_eq.mpr dot)
  have noDots : new.name ≠ ".." := fun dots => isNew.noDots (beq_iff_eq.mpr dots)
  have beside := Path.beside_withExtension segment unslashed last noDot
  have apart := Path.getLast?_withExtension_ne unslashed last noDot noDots segment plain
  rw [← last] at apart
  obtain ⟨old, new, front, replaces⟩ := replaces_of_rename beside apart done
  rw [replaces.passesBy_iff]
  exact ⟨replaces.lookup_path written, replaces.lookup_ne_file written⟩

theorem passesBy_congr (leads : ∀ e, d'.lead e = d.lead e) :
    d'.PassesBy source path ↔ d.PassesBy source path := by
  simp only [PassesBy, ComesBy, goes_congr leads]

end ChassisCooling.Files.Disk

namespace ChassisCooling.Settings

open Calendar Files Text

variable {d d' d₁ : Disk} {path : Path} {s t : Settings} {refusal : SaveStep → Option Cause}
  {fault : Fault} {result : Except Fault Unit} {bytes : List UInt8}

/-! ## Loading -/

/-- What is loaded from a path is in the file that it leads to. -/
theorem load_of_content {text : List Char} (held : d.content path = some (Utf8.encode text))
    (read : (Json.read? text).bind ofJson? = some t) : load d path = .ok t := by
  obtain ⟨id, found, bytes⟩ := Disk.content_eq_some_iff.mp held
  have present : d.present path = true := by rw [Disk.present, found]; rfl
  rw [load, if_pos present, Disk.read, found]
  simp only [bind, Except.bind, bytes, Utf8.decode?_encode, read]

/-- From a path that leads to no file nothing but the default settings are loaded. -/
theorem eq_default_of_load (missing : d.content path = none) (loaded : load d path = .ok t) :
    t = .default := by
  rw [load] at loaded
  split at loaded
  · obtain ⟨bytes, read, -⟩ := ok_of_bind loaded
    rw [Disk.read] at read
    split at read
    · next id found => cases missing.symm.trans (Disk.content_of_lookup found)
    · cases read
    · cases read
    · cases read
  · exact (Except.ok.inj loaded).symm

/-- The text of a settings file is read as the document of the settings. -/
theorem read?_fileText (s : Settings) : Json.read? s.fileText = some s.toJson :=
  Json.read?_indented s.isMadeOf_toJson

theorem ofJson?_toJson (s : Settings) : ofJson? s.toJson = some s := by
  obtain ⟨t, read, same⟩ := ofJson?_part (fun _ => true) (fun _ _ => true) s
  have all : ∀ f : Field, f.isKept (fun _ => true) (fun _ _ => true) = true := by
    intro f
    cases f <;> rfl
  rw [Json.part_all] at read
  rw [read]
  apply congrArg some
  apply ext_value
  intro f
  rw [same, if_pos (all f)]

/-! ## The steps of a save -/

/-- The bytes of a settings file. -/
def fileBytes (s : Settings) : List UInt8 :=
  Utf8.encode s.fileText

/-- The file that is written beside a path is what the path leads to. -/
def IsWrittenThrough (d : Disk) (path : Path) : Prop :=
  ∃ id d', d.create (besidePath path) = .ok (id, d') ∧ d'.lookup path = .ok (.file id)

theorem fileBytes_ne_nil (s : Settings) : s.fileBytes ≠ [] := by
  intro none
  have text := Utf8.decode?_encode s.fileText
  rw [show Utf8.encode s.fileText = [] from none] at text
  have read := read?_fileText s
  rw [← Option.some.inj text] at read
  cases read

theorem sound_of_prepared (sound : d.IsSound) (prepared : prepareWith refusal d path = (result, d₁)) :
    d₁.IsSound := by
  have all : (prepareWith refusal d path).2.IsSound := by
    rw [prepareWith]
    split
    · exact sound
    · exact sound.ensureDirectoriesWith _ _ _
  rwa [prepared] at all

/-- What a save that succeeds has done. -/
theorem saved_inversion (saved : saveWith refusal d path s = (.ok (), d')) :
    ∃ d₁ id d₂, prepareWith refusal d path = (.ok (), d₁) ∧
      d₁.create (besidePath path) = .ok (id, d₂) ∧
      (d₂.appendTo id s.fileBytes).rename (besidePath path) path = .ok d' := by
  simp only [saveWith] at saved
  split at saved
  · cases (Prod.mk.inj saved).1
  next d₁ prepared =>
  split at saved
  · cases (Prod.mk.inj saved).1
  next id d₂ created =>
  split at saved
  · cases (Prod.mk.inj saved).1
  next d₃ written =>
  obtain rfl := Disk.eq_of_writeTo written
  split at saved
  · cases (Prod.mk.inj saved).1
  split at saved
  · cases (Prod.mk.inj saved).1
  next d₄ renamed =>
  obtain ⟨-, rfl⟩ := Prod.mk.inj saved
  exact ⟨d₁, id, d₂, prepared, Disk.ok_of_unlessRefused created, Disk.ok_of_unlessRefused renamed⟩

/-- What a save that fails has done: it has made the directories that it could make, and may have
written a part of the text beside the path. -/
theorem failed_inversion (failed : saveWith refusal d path s = (.error fault, d')) :
    ∃ result d₁, prepareWith refusal d path = (result, d₁) ∧ (d' = d₁ ∨ result = .ok () ∧
      ∃ id d₂ count, d₁.create (besidePath path) = .ok (id, d₂) ∧
        d' = d₂.appendTo id (s.fileBytes.take count)) := by
  simp only [saveWith] at failed
  split at failed
  · next prepared =>
    obtain ⟨-, rfl⟩ := Prod.mk.inj failed
    exact ⟨_, _, prepared, .inl rfl⟩
  next d₁ prepared =>
  refine ⟨_, d₁, prepared, ?_⟩
  split at failed
  · obtain ⟨-, rfl⟩ := Prod.mk.inj failed
    exact .inl rfl
  next id d₂ created =>
  have created := Disk.ok_of_unlessRefused created
  have whole : s.fileBytes.take s.fileBytes.length = s.fileBytes := List.take_length
  split at failed
  · next cause d₃ refused =>
    obtain ⟨-, rfl⟩ := Prod.mk.inj failed
    obtain ⟨index, -, -, rfl⟩ := Disk.writeTo_inversion refused
    exact .inr ⟨rfl, id, d₂, index, created, rfl⟩
  next d₃ written =>
  obtain rfl := Disk.eq_of_writeTo written
  split at failed
  · obtain ⟨-, rfl⟩ := Prod.mk.inj failed
    exact .inr ⟨rfl, id, d₂, _, created, by rw [whole]; rfl⟩
  split at failed
  · obtain ⟨-, rfl⟩ := Prod.mk.inj failed
    exact .inr ⟨rfl, id, d₂, _, created, by rw [whole]; rfl⟩
  · cases (Prod.mk.inj failed).1

theorem save_of_renamed {id : FileId} {d₂ : Disk}
    (prepared : prepareWith (fun _ => none) d path = (.ok (), d₁))
    (created : d₁.create (besidePath path) = .ok (id, d₂))
    (renamed : (d₂.appendTo id s.fileBytes).rename (besidePath path) path = .ok d') :
    save d path s = (.ok (), d') := by
  have written : d₂.writeTo (fun _ => none) id (Utf8.encode s.fileText) = _ :=
    Disk.writeTo_accepted (fun _ => rfl) d₂ id _
  have renamed : (d₂.appendTo id (Utf8.encode s.fileText)).rename (besidePath path) path = .ok d' :=
    renamed
  simp only [save, saveWith, prepared, unlessRefused, created, written, renamed]

/-! ## Steps that are refused -/

/-- The system refuses the same directories, and one step besides. -/
def refusing (refusal : SaveStep → Option Cause) (step : SaveStep) (cause : Cause) :
    SaveStep → Option Cause
  | .directory path => refusal (.directory path)
  | other => if other = step then some cause else none

section Refused

variable {id : FileId} {d₂ : Disk}

theorem prepareWith_refusing (refusal : SaveStep → Option Cause) (step : SaveStep) (cause : Cause)
    (d : Disk) (path : Path) :
    prepareWith (refusing refusal step cause) d path = prepareWith refusal d path :=
  rfl

variable (prepared : prepareWith refusal d path = (.ok (), d₁))

include prepared

theorem saveWith_refusing_create (cause : Cause) : saveWith (refusing refusal .create cause) d path s =
    (.error (.fileWrite (besidePath path) cause), d₁) := by
  simp only [saveWith, prepareWith_refusing, prepared, refusing, ↓reduceIte, unlessRefused]

variable (created : d₁.create (besidePath path) = .ok (id, d₂))

include created

theorem saveWith_refusing_write (cause : Cause) {count : Nat} (inside : count < s.fileBytes.length) :
    saveWith (refusing refusal (.write count) cause) d path s =
      (.error (.fileWrite (besidePath path) cause), d₂.appendTo id (s.fileBytes.take count)) := by
  have part : d₂.writeTo (fun index => refusing refusal (.write count) cause (.write index)) id
      (Utf8.encode s.fileText) = (some cause, d₂.appendTo id (s.fileBytes.take count)) := by
    apply Disk.writeTo_refused inside
    · intro other before
      exact if_neg fun same => Nat.ne_of_lt before (SaveStep.write.inj same)
    · exact if_pos rfl
  have made : refusing refusal (.write count) cause .create = none := rfl
  simp only [saveWith, prepareWith_refusing, prepared, made, unlessRefused, created, part]

theorem saveWith_refusing_sync (cause : Cause) : saveWith (refusing refusal .sync cause) d path s =
    (.error (.fileWrite (besidePath path) cause), d₂.appendTo id s.fileBytes) := by
  have whole : d₂.writeTo (fun index => refusing refusal .sync cause (.write index)) id
      (Utf8.encode s.fileText) = (none, d₂.appendTo id s.fileBytes) :=
    Disk.writeTo_accepted (fun _ => rfl) d₂ id _
  have made : refusing refusal .sync cause .create = none := rfl
  have refused : refusing refusal .sync cause .sync = some cause := rfl
  simp only [saveWith, prepareWith_refusing, prepared, made, unlessRefused, created, whole, refused]

end Refused

/-! ## What is left behind -/

section Left

variable (sound : d.IsSound) (prepared : prepareWith refusal d path = (result, d₁))

include sound prepared

/-- A save that fails leaves what was there when its directories had been made. -/
theorem content_of_failed (failed : saveWith refusal d path s = (.error fault, d'))
    (beside : result = .ok () → ¬ IsWrittenThrough d₁ path) : d'.content path = d₁.content path := by
  have sound₁ := sound_of_prepared sound prepared
  obtain ⟨result', d₀, prepared', rfl | ⟨rfl, id, d₂, count, created, rfl⟩⟩ :=
    failed_inversion failed
  · cases prepared.symm.trans prepared'
    rfl
  · cases prepared.symm.trans prepared'
    apply Disk.content_of_create sound₁ created
    exact fun found => beside rfl ⟨id, d₂, created, found⟩

end Left

/-- Where the file that is written first is what the path leads to, a save that fails leaves as much of
the text as has been written. -/
theorem content_of_written_through (sound : d.IsSound)
    (prepared : prepareWith refusal d path = (.ok (), d₁)) (through : IsWrittenThrough d₁ path)
    (s : Settings) : (∀ count < s.fileBytes.length, ∃ refusal' fault d',
        saveWith refusal' d path s = (.error fault, d') ∧
          d'.content path = some (s.fileBytes.take count)) ∧
      ∃ refusal' fault d', saveWith refusal' d path s = (.error fault, d') ∧
        d'.content path = some s.fileBytes := by
  have sound₁ := sound_of_prepared sound prepared
  obtain ⟨id, d₂, created, found⟩ := through
  constructor
  · intro count inside
    refine ⟨_, _, _, saveWith_refusing_write prepared created .busy inside, ?_⟩
    exact Disk.content_of_create_self sound₁ created found _
  · refine ⟨_, _, _, saveWith_refusing_sync prepared created .busy, ?_⟩
    exact Disk.content_of_create_self sound₁ created found _

/-- All saves that can fail leave what was there, if and only if nothing comes to be there by the
directories that are made, and the file that is written first is not what the path leads to. -/
theorem keeps_content_iff (sound : d.IsSound) (path : Path) (s : Settings) :
    (∀ refusal fault d', saveWith refusal d path s = (.error fault, d') →
      d'.content path = d.content path) ↔
    ∀ refusal result d₁, prepareWith refusal d path = (result, d₁) →
      d₁.content path = d.content path ∧ (result = .ok () → ¬ IsWrittenThrough d₁ path) := by
  constructor
  · intro keeps refusal result d₁ prepared
    cases result with
    | error fault =>
      refine ⟨keeps refusal fault d₁ ?_, nofun⟩
      simp only [saveWith, prepared]
    | ok done =>
      refine ⟨keeps _ _ _ (saveWith_refusing_create prepared .busy), ?_⟩
      intro _ through
      obtain ⟨parts, refusal', fault', d', failed', all⟩ :=
        content_of_written_through sound prepared through s
      obtain ⟨refusal, fault, d₀, failed, none⟩ :=
        parts 0 (List.length_pos_iff.mpr s.fileBytes_ne_nil)
      have same := (keeps _ _ _ failed).trans (keeps _ _ _ failed').symm
      rw [none, all] at same
      exact s.fileBytes_ne_nil (Option.some.inj same).symm
  · intro steps refusal fault d' failed
    obtain ⟨kept, beside⟩ := steps refusal _ _ rfl
    rw [content_of_failed sound rfl failed beside, kept]

/-- Settings that have been saved are loaded, unless the way to the file that was written first came
by the path's own name: then the path leads to no file. -/
theorem load_of_saved (sound : d.IsSound) (saved : saveWith refusal d path s = (.ok (), d')) :
    ∃ d₁, prepareWith refusal d path = (.ok (), d₁) ∧
      (¬ d₁.PassesBy (besidePath path) path →
        d'.content path = some s.fileBytes ∧ load d' path = .ok s) ∧
      (d₁.PassesBy (besidePath path) path →
        d'.content path = none ∧ ∀ t, load d' path = .ok t → t = .default) := by
  obtain ⟨d₁, id, d₂, prepared, created, renamed⟩ := saved_inversion saved
  have sound₁ := sound_of_prepared sound prepared
  obtain ⟨held, empty⟩ := Disk.bytes_of_create_self sound₁ created
  have written : (d₂.appendTo id s.fileBytes).lookup (besidePath path) = .ok (.file id) ∧
      ∀ e, (d₂.appendTo id s.fileBytes).lead e = d₁.lead e := by
    obtain ⟨⟨id', d₀⟩, opened, cleared⟩ := ok_of_bind created
    cases cleared
    have leads : ∀ e, ((d₀.clear id).appendTo id s.fileBytes).lead e = d₀.lead e := fun _ => rfl
    exact ⟨Disk.lookup_of_openAppend opened rfl rfl,
      fun e => (leads e).trans (Disk.lead_openAppend opened e)⟩
  have bytes : d'.bytes id = s.fileBytes := by
    rw [Disk.bytes, Disk.written, Disk.contents_of_rename renamed, ← Disk.written, ← Disk.bytes,
      Disk.bytes_appendTo held, empty, List.nil_append]
  have ending : besidePath path = Path.withExtension path ("json" ++ "." ++ "tmp") := rfl
  rw [ending] at written renamed ⊢
  obtain ⟨clear, passed⟩ := Disk.lookup_of_replaced (by simp [Path.IsSegment]) (by simp)
    written.1 renamed
  rw [Disk.passesBy_congr written.2] at clear passed
  refine ⟨d₁, prepared, fun beside => ?_, fun through => ?_⟩
  · have content : d'.content path = some s.fileBytes := by
      rw [Disk.content_of_lookup (clear beside), bytes]
    refine ⟨content, load_of_content content ?_⟩
    rw [read?_fileText, Option.bind_some, ofJson?_toJson]
  · have none : d'.content path = none := by
      rw [Option.eq_none_iff_forall_ne_some]
      intro bytes held
      obtain ⟨other, found, -⟩ := Disk.content_eq_some_iff.mp held
      exact passed through other found
    exact ⟨none, fun t loaded => eq_default_of_load none loaded⟩

/-- The directories that are made bring nothing to a path that does not go up again. -/
theorem content_of_prepared (grounded : d.IsGrounded)
    (plain : missingParent? d path = none ∨ ".." ∉ Path.names path) :
    (prepareWith refusal d path).2.content path = d.content path := by
  rw [prepareWith]
  split
  · rfl
  next parent missing =>
  obtain ⟨found, absent⟩ := Option.filter_eq_some_iff.mp missing
  obtain ⟨filled, absent⟩ := Bool.and_eq_true_iff.mp absent
  have filled : parent ≠ "" := by
    rintro rfl
    cases filled
  have absent : d.present parent = false := by simpa using absent
  have lies := Path.liesIn_of_parent? found filled
  have noDots := plain.resolve_left (by rw [missing]; nofun)
  have made := Disk.ensureDirectoriesWith_cases grounded (fun path => refusal (.directory path))
    (parent.length + 1) parent
  change (d.ensureDirectoriesWith (fun path => refusal (.directory path))
    (parent.length + 1) parent).2.content path = _
  rcases made with same | ⟨-, opens⟩
  · rw [same]
  · rw [Disk.content_of_missing lies filled absent]
    exact Disk.content_of_opensEmpty (opens.of_liesIn lies) noDots

/-! ## The promise of a save -/

/-- Settings that have been saved are what is loaded, and what is left of their document is loaded with
the default values in place of what is left out. This holds unless the way to the file that was
written first came by the path's own name: then the path leads to no file. A save that fails leaves
what was there when its directories had been made, unless the file that is written first is what the
path leads to; and those directories bring nothing to a path that does not go up again. -/
theorem save_keeps_promise_iff (sound : d.IsSound) (grounded : d.IsGrounded) (path : Path)
    (s : Settings) :
    (∀ refusal d', saveWith refusal d path s = (.ok (), d') →
      ∃ d₁, prepareWith refusal d path = (.ok (), d₁) ∧
        (¬ d₁.PassesBy (besidePath path) path →
          d'.content path = some s.fileBytes ∧ load d' path = .ok s) ∧
        (d₁.PassesBy (besidePath path) path →
          d'.content path = none ∧ ∀ t, load d' path = .ok t → t = .default)) ∧
    (Json.read? s.fileText = some s.toJson ∧ ∀ keepsSection keepsField, ∃ t : Settings,
      (∀ f : Field, t.value f =
        if f.isKept keepsSection keepsField then s.value f else Settings.default.value f) ∧
      ∀ text, Json.read? text = some (s.toJson.part keepsSection keepsField) →
        ∀ d path, d.content path = some (Utf8.encode text) → load d path = .ok t) ∧
    (∀ refusal fault d', saveWith refusal d path s = (.error fault, d') →
      ∃ result d₁, prepareWith refusal d path = (result, d₁) ∧
        ((result = .ok () → ¬ IsWrittenThrough d₁ path) → d'.content path = d₁.content path)) ∧
    ((∀ refusal fault d', saveWith refusal d path s = (.error fault, d') →
        d'.content path = d.content path) ↔
      ∀ refusal result d₁, prepareWith refusal d path = (result, d₁) →
        d₁.content path = d.content path ∧ (result = .ok () → ¬ IsWrittenThrough d₁ path)) ∧
    (missingParent? d path = none ∨ ".." ∉ Path.names path →
      ∀ refusal, (prepareWith refusal d path).2.content path = d.content path) := by
  refine ⟨fun _ _ saved => load_of_saved sound saved, ⟨read?_fileText s, ?_⟩, ?_,
    keeps_content_iff sound path s, fun plain _ => content_of_prepared grounded plain⟩
  · intro keepsSection keepsField
    obtain ⟨t, read, values⟩ := ofJson?_part keepsSection keepsField s
    refine ⟨t, values, fun text parsed d path held => load_of_content held ?_⟩
    rw [parsed, Option.bind_some, read]
  · intro refusal fault d' failed
    refine ⟨_, _, rfl, fun beside => ?_⟩
    exact content_of_failed sound rfl failed beside

/-! Settings that are saved on a disk without files, and on one where the name beside the path is a link
to it. -/

/-- The path of a settings file. -/
def sampleName : Path := "c.json"

/-- The path beside it. -/
def sampleBeside : Path := "c.json.tmp"

/-- Settings that are not the default ones. -/
def sampleSettings : Settings :=
  { Settings.default with logLevel := "debug" }

section Samples

variable {contents : List Contents}

theorem besidePath_sampleName : besidePath sampleName = sampleBeside := by
  decide +kernel

theorem isSingle_sampleName : Disk.IsSingle sampleName := by
  constructor
  all_goals decide +kernel

theorem isSingle_sampleBeside : Disk.IsSingle sampleBeside := by
  constructor
  all_goals decide +kernel

theorem prepareWith_sampleName (refusal : SaveStep → Option Cause) (d : Disk) :
    prepareWith refusal d sampleName = (.ok (), d) := by
  have parent : Path.parent? sampleName = some "" := by decide +kernel
  rw [prepareWith, missingParent?, parent]
  rfl

/-- A disk with one name in its working directory. -/
def diskOf (name : Path) (node : Node) (contents : List Contents) : Disk :=
  ⟨[(⟨Disk.workingDirectory, name⟩, node)], [Disk.root, Disk.root], contents⟩

theorem create_empty : Disk.empty.create (besidePath sampleName) =
    .ok (0, diskOf sampleBeside (.file 0) [[]]) := by
  have walked : Disk.empty.walk .file Disk.maxLinks false Disk.workingDirectory [sampleBeside] =
      .ok (.entry ⟨Disk.workingDirectory, sampleBeside⟩ false) := by
    rw [Disk.walk]
    rfl
  rw [besidePath_sampleName, Disk.create, Disk.openAppend,
    Disk.locate_single isSingle_sampleBeside, walked]
  rfl

theorem rename_diskOf : (diskOf sampleBeside (.file 0) contents).rename (besidePath sampleName)
    sampleName = .ok (diskOf sampleName (.file 0) contents) := by
  have first : (diskOf sampleBeside (.file 0) contents).walk .entry Disk.maxLinks false
      Disk.workingDirectory [sampleBeside] =
        .ok (.entry ⟨Disk.workingDirectory, sampleBeside⟩ false) := by
    rw [Disk.walk]
    rfl
  have second : (diskOf sampleBeside (.file 0) contents).walk .entry Disk.maxLinks false
      Disk.workingDirectory [sampleName] =
        .ok (.entry ⟨Disk.workingDirectory, sampleName⟩ false) := by
    rw [Disk.walk]
    rfl
  rw [besidePath_sampleName, Disk.rename, Disk.locate_single isSingle_sampleBeside, first,
    Disk.locate_single isSingle_sampleName, second]
  rfl

theorem isSound_empty : Disk.empty.IsSound :=
  nofun

theorem isGrounded_empty : Disk.empty.IsGrounded := by
  refine ⟨by decide, fun id => ?_, nofun, nofun⟩
  rw [Disk.above]
  rcases id with _ | _ | id
  all_goals exact Nat.zero_lt_succ _

/-- On a disk without files no way comes by a second name. -/
theorem not_passesBy_empty : ¬ Disk.empty.PassesBy (besidePath sampleName) sampleName := by
  rintro ⟨n, e, -, last, m, rest, goes⟩
  rw [besidePath_sampleName, Disk.start_single isSingle_sampleBeside] at goes
  rw [isSingle_sampleName.names] at last
  generalize reached : (e.directory, e.name :: rest) = q at goes
  cases goes with
  | stay =>
    rw [← Option.some.inj last] at reached
    exact absurd (List.cons.inj (Prod.mk.inj reached).2).1 (by decide)
  | step stepped => cases stepped

/-- Settings that are saved on a disk without files are loaded. -/
theorem saved_on_empty_is_loaded : Disk.empty.IsSound ∧ Disk.empty.IsGrounded ∧
    ∃ d', save Disk.empty sampleName sampleSettings = (.ok (), d') ∧
      load d' sampleName = .ok sampleSettings := by
  have written : (diskOf sampleBeside (.file 0) [[]]).appendTo 0 sampleSettings.fileBytes =
      diskOf sampleBeside (.file 0) [[sampleSettings.fileBytes]] := rfl
  have saved : save Disk.empty sampleName sampleSettings =
      (.ok (), diskOf sampleName (.file 0) [[sampleSettings.fileBytes]]) :=
    save_of_renamed (prepareWith_sampleName _ _) create_empty (written ▸ rename_diskOf)
  obtain ⟨loaded, -⟩ :=
    save_keeps_promise_iff isSound_empty isGrounded_empty sampleName sampleSettings
  obtain ⟨d₁, prepared, kept, -⟩ := loaded _ _ saved
  obtain ⟨-, rfl⟩ := Prod.mk.inj ((prepareWith_sampleName _ _).symm.trans prepared)
  exact ⟨isSound_empty, isGrounded_empty, _, saved, (kept not_passesBy_empty).2⟩

/-- A file of settings, and beside it a link that leads to it. -/
def linkedDisk (contents : List Contents) : Disk :=
  ⟨[(⟨Disk.workingDirectory, sampleBeside⟩, .symlink sampleName),
    (⟨Disk.workingDirectory, sampleName⟩, .file 0)], [Disk.root, Disk.root], contents⟩

theorem walk_linkedDisk (approach : Disk.Approach) (links : Nat) :
    (linkedDisk contents).walk approach links false Disk.workingDirectory [sampleName] =
      .ok (.entry ⟨Disk.workingDirectory, sampleName⟩ false) := by
  rw [Disk.walk]
  cases approach <;> rfl

theorem lookup_linkedDisk : (linkedDisk contents).lookup sampleName = .ok (.file 0) := by
  rw [Disk.lookup, Disk.find, Disk.locate_single isSingle_sampleName, walk_linkedDisk]
  rfl

/-- The link is followed, so that the file itself is written anew. -/
theorem create_linkedDisk : (linkedDisk contents).create (besidePath sampleName) =
    .ok (0, linkedDisk (contents.set 0 [])) := by
  have followed : (linkedDisk contents).walk .file 39
      (false || true && Path.endsInSlash sampleName)
      (Disk.startOf sampleName Disk.workingDirectory) (Path.names sampleName ++ []) =
        .ok (.entry ⟨Disk.workingDirectory, sampleName⟩ false) := by
    rw [isSingle_sampleName.names, isSingle_sampleName.unslashed, Disk.startOf,
      isSingle_sampleName.relative]
    exact walk_linkedDisk .file 39
  have walked : (linkedDisk contents).walk .file Disk.maxLinks false Disk.workingDirectory
      [sampleBeside] = .ok (.entry ⟨Disk.workingDirectory, sampleName⟩ false) := by
    rw [Disk.walk]
    exact followed
  rw [besidePath_sampleName, Disk.create, Disk.openAppend,
    Disk.locate_single isSingle_sampleBeside, walked]
  rfl

theorem rename_linkedDisk : (linkedDisk contents).rename (besidePath sampleName) sampleName =
    .ok (diskOf sampleName (.symlink sampleName) contents) := by
  have first : (linkedDisk contents).walk .entry Disk.maxLinks false Disk.workingDirectory
      [sampleBeside] = .ok (.entry ⟨Disk.workingDirectory, sampleBeside⟩ false) := by
    rw [Disk.walk]
    rfl
  rw [besidePath_sampleName, Disk.rename, Disk.locate_single isSingle_sampleBeside, first,
    Disk.locate_single isSingle_sampleName, walk_linkedDisk]
  rfl

theorem isSound_linkedDisk (contents : Contents) : (linkedDisk [contents]).IsSound := by
  intro named among id file
  rcases List.mem_cons.mp among with rfl | among
  · cases file
  · cases List.mem_singleton.mp among
    cases file
    exact Nat.zero_lt_one

/-- The way to the file comes by its own name. -/
theorem passesBy_linkedDisk :
    (linkedDisk contents).PassesBy (besidePath sampleName) sampleName := by
  rw [besidePath_sampleName]
  refine ⟨0, ⟨Disk.workingDirectory, sampleName⟩, ?_, ?_, 1, [], ?_⟩
  · rw [isSingle_sampleName.names, Disk.startOf, isSingle_sampleName.relative]
    exact .stay _
  · rw [isSingle_sampleName.names]
    rfl
  · rw [Disk.start_single isSingle_sampleBeside]
    apply Disk.goes_link ⟨by decide, by decide⟩ rfl
    rw [isSingle_sampleName.names, Disk.startOf, isSingle_sampleName.relative]
    exact .stay _

/-- Settings whose path is what the name beside it leads to are lost by a save that succeeds, for the
link that takes their place leads to itself, and by one that fails. -/
theorem linked_settings_are_lost :
    (linkedDisk [[Settings.default.fileBytes]]).content sampleName =
      some Settings.default.fileBytes ∧
    (∃ d', save (linkedDisk [[Settings.default.fileBytes]]) sampleName sampleSettings = (.ok (), d') ∧
      d'.content sampleName = none ∧ load d' sampleName ≠ .ok sampleSettings) ∧
    ∃ refusal fault d', saveWith refusal (linkedDisk [[Settings.default.fileBytes]]) sampleName
      sampleSettings = (.error fault, d') ∧ d'.content sampleName = some [] := by
  have sound := isSound_linkedDisk [Settings.default.fileBytes]
  have saved : save (linkedDisk [[Settings.default.fileBytes]]) sampleName sampleSettings =
      (.ok (), diskOf sampleName (.symlink sampleName) [[sampleSettings.fileBytes]]) := by
    have written : (linkedDisk [[]]).appendTo 0 sampleSettings.fileBytes =
        linkedDisk [[sampleSettings.fileBytes]] := rfl
    exact save_of_renamed (prepareWith_sampleName _ _) create_linkedDisk
      (written ▸ rename_linkedDisk)
  refine ⟨?_, ⟨_, saved, ?_⟩, ?_⟩
  · rw [Disk.content_of_lookup lookup_linkedDisk]
    exact congrArg some (List.append_nil _)
  · obtain ⟨d₁, prepared, -, lost⟩ := load_of_saved sound saved
    obtain ⟨-, rfl⟩ := Prod.mk.inj ((prepareWith_sampleName _ _).symm.trans prepared)
    obtain ⟨none, loaded⟩ := lost passesBy_linkedDisk
    refine ⟨none, fun kept => ?_⟩
    have level := congrArg Settings.logLevel (loaded _ kept)
    exact absurd level (by decide)
  · obtain ⟨parts, -⟩ := content_of_written_through sound
      (prepareWith_sampleName (fun _ => none) _) ⟨0, _, create_linkedDisk, lookup_linkedDisk⟩ sampleSettings
    exact parts 0 (List.length_pos_iff.mpr sampleSettings.fileBytes_ne_nil)

end Samples

end ChassisCooling.Settings
