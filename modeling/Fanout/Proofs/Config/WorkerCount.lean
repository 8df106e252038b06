import Fanout.Proofs.Config.Fields
import Fanout.Proofs.Text
import Fanout.Proofs.Yaml.Value
import Mathlib

/-!
# Worker counts in configuration files

`Config.worker_count_of_file` gives the worker count of a configuration file whose other fields are
valid. Without the field the count is left to the backend, a 64-bit integer is the count, and any
other TOML value is kept for the error message of the backend. A YAML value is kept only if it has a
JSON form; otherwise loading fails, as the last theorem shows on an example.
-/

namespace Fanout

namespace Yaml

variable {document : Document} {path : Path} {node : Node} {value : Value}

/-! ## What a value is read as -/

/-- `readWorkers` of an `Int64` is the count. -/
theorem readWorkers_of_integer {n : Int64}
    (h : document.meaning node = some (.integer n.toInt)) :
    readWorkers document path (document.deref node) = .ok (.integer n) := by
  obtain ⟨⟨value, used⟩, hvalue, hinteger⟩ := Option.map_eq_some_iff.mp h
  obtain rfl : value = .integer n.toInt := hinteger
  rw [readWorkers, hvalue]
  dsimp only [Value.firstTag]
  rw [if_pos ⟨n.minValue_le_toInt, n.toInt_le⟩, Int64.ofInt_toInt]
  rfl

/-- `readWorkers` of any other value with a JSON form keeps this form. -/
theorem readWorkers_of_toJson? {json : Json.Value} (h : document.meaning node = some value)
    (hother : ∀ n : Int64, value ≠ .integer n.toInt) (hjson : value.toJson? = some json) :
    readWorkers document path (document.deref node) = .ok (.other json) := by
  obtain ⟨⟨value, used⟩, hvalue, rfl⟩ := Option.map_eq_some_iff.mp h
  have hshowable : value.Showable := Value.isSome_toJson?_iff.mp (by rw [hjson]; rfl)
  rw [readWorkers, hvalue]
  dsimp only at hother hjson ⊢
  rw [hshowable.firstTag_eq_none]
  dsimp only
  split
  case h_1 n =>
    rw [Value.toJson?] at hjson
    cases hjson
    -- an integer that is kept does not have 64 bits
    have hrange : ¬ (Int64.minValue.toInt ≤ n ∧ n ≤ Int64.maxValue.toInt) := by
      rintro ⟨hmin, hmax⟩
      rw [Int64.toInt_minValue] at hmin
      rw [Int64.toInt_maxValue] at hmax
      exact hother (Int64.ofInt n)
        (congrArg _ (Int64.toInt_ofInt_of_le hmin (by omega)).symm)
    rw [if_neg hrange]
    rfl
  case h_2 =>
    rw [hjson]
    rfl

/-- The complaint about a value without a JSON form: it has a tag in it, or a key that is no
text. -/
def unfit (path : Path) (value : Value) : Complaint :=
  match value.firstTag path with
  | some place => ⟨place, .other "untagged and internally tagged enums do not support enum input"⟩
  | none => ⟨.root, .other "data did not match any variant of untagged enum WorkerCountSetting"⟩

/-- `readWorkers` of a value without a JSON form is the complaint `unfit`. -/
theorem readWorkers_of_not_showable (h : document.meaning node = some value)
    (hunfit : ¬ value.Showable) :
    readWorkers document path (document.deref node) = .error (unfit path value) := by
  obtain ⟨⟨value, used⟩, hvalue, rfl⟩ := Option.map_eq_some_iff.mp h
  rw [readWorkers, hvalue]
  dsimp only [unfit]
  cases value.firstTag path with
  | some place => rfl
  | none =>
    dsimp only
    split
    case h_1 n => exact absurd (.integer n) hunfit
    case h_2 =>
      have hjson : value.toJson? = none :=
        Option.not_isSome_iff_eq_none.mp fun hjson => hunfit (Value.isSome_toJson?_iff.mp hjson)
      rw [hjson]
      rfl

/-- A node that `isAbsent` means `null`. -/
theorem eq_null_of_isAbsent (h : document.meaning node = some value)
    (habsent : (document.deref node).isAbsent = true) : value = .null := by
  unfold Node.isAbsent at habsent
  split at habsent
  case h_1 text hscalar =>
    rw [Document.meaning_of_scalar hscalar, Value.ofScalar?, if_pos rfl, Value.ofPlain?,
      if_pos habsent] at h
    exact (Option.some.inj h).symm
  case h_2 text tag hscalar =>
    obtain ⟨htag, hnull⟩ := Bool.and_eq_true_iff.mp habsent
    obtain rfl := eq_of_beq htag
    rw [Document.meaning_of_scalar hscalar, Value.ofScalar?, if_pos hnull] at h
    exact (Option.some.inj h).symm
  case h_3 => cases habsent

theorem isAbsent_eq_false (h : document.meaning node = some value) (hvalue : value ≠ .null) :
    (document.deref node).isAbsent = false :=
  Bool.eq_false_iff.mpr fun habsent => hvalue (eq_null_of_isAbsent h habsent)

/-! ## What a document asks for -/

/-- The mapping of the document has the entry `count` for the worker count, or none, and without it
the configuration is `rest`. -/
structure Document.Asks (document : Document) (count : Option (Node × Node)) (rest : Config) :
    Prop where
  readable : document.isReadable = true
  root : ∃ before after tag,
    document.deref (document.root.getD (.omitted none)) =
        .mapping (before ++ (count.toList ++ after)) tag ∧
      (∀ entry ∈ count, document.Names "n_workers" entry) ∧
      (∀ other ∈ before ++ after, ¬ document.Names "n_workers" other) ∧
      readConfig document .root (.mapping (before ++ after) tag) = .ok rest

end Yaml

namespace Toml

/-- The table has the value `count` for the worker count, or none, and without it the configuration
is `rest`. -/
def Value.Asks (document : Value) (count : Option Value) (rest : Config) : Prop :=
  ∃ origin before after,
    document = .table origin (before ++ ((count.map ("n_workers", ·)).toList ++ after)) ∧
      (∀ other ∈ before ++ after, other.1 ≠ "n_workers") ∧
      readConfig (.table origin (before ++ after)) = .ok rest

/-- `readWorkers` of anything but an integer keeps its JSON form. -/
theorem readWorkers_of_ne {value : Value} (h : ∀ n, value ≠ .integer n) :
    readWorkers value = .other value.toJson := by
  cases value with
  | integer n => exact absurd rfl (h n)
  | _ => rfl

end Toml

namespace Config

/-! ## What becomes of a count -/

variable {path text : String} {rest : Config} {loaded : Except ConfigError Config}

/-- The configuration is loaded and leaves the worker count to the backend. -/
structure LeavesCount (loaded : Except ConfigError Config) (rest : Config) : Prop where
  loaded : loaded = .ok rest
  requested (parallelism : Option Int64) :
    rest.requestedWorkers parallelism = .ok (rest.backend.defaultWorkers parallelism)

/-- The configuration is loaded and asks for `n` workers. -/
structure FixesCount (loaded : Except ConfigError Config) (rest : Config) (n : Int64) : Prop where
  loaded : loaded = .ok { rest with workers := some (.integer n) }
  requested (parallelism : Option Int64) :
    ({ rest with workers := some (.integer n) } : Config).requestedWorkers parallelism = .ok n

/-- The configuration is loaded with `shown` in place of a count, and building the backend is
refused for it. -/
structure RefusesCount (loaded : Except ConfigError Config) (rest : Config) (shown : Json.Value) :
    Prop where
  loaded : loaded = .ok { rest with workers := some (.other shown) }
  requested (parallelism : Option Int64) :
    ({ rest with workers := some (.other shown) } : Config).requestedWorkers parallelism =
      .error (.configuration rest.backend.name (Rules.countReason shown.compact))
  built (parallelism : Option Int64) :
    ({ rest with workers := some (.other shown) } : Config).construct parallelism =
      .silent (.error (.configuration rest.backend.name (Rules.countReason shown.compact)))

theorem LeavesCount.of_eq (h : loaded = .ok rest) (hrest : rest.workers = none) :
    LeavesCount loaded rest := by
  refine ⟨h, fun parallelism => ?_⟩
  rw [requestedWorkers, hrest]

theorem FixesCount.of_eq {n : Int64} (h : loaded = .ok { rest with workers := some (.integer n) }) :
    FixesCount loaded rest n := ⟨h, fun _ => rfl⟩

theorem RefusesCount.of_eq {shown : Json.Value}
    (h : loaded = .ok { rest with workers := some (.other shown) }) :
    RefusesCount loaded rest shown := ⟨h, fun _ => rfl, fun _ => rfl⟩

theorem load_yaml (h : ConfigFormat.ofPath path = .yaml) :
    load path (.ok (Utf8.encode text)) = (ofYaml text).mapError .yaml := by
  rw [load, Traversal.mapError_ok, Traversal.ok_bind, Utf8.decode_encode, Traversal.mapError_ok,
    Traversal.ok_bind, h]

theorem load_toml (h : ConfigFormat.ofPath path = .toml) :
    load path (.ok (Utf8.encode text)) = (ofToml text).mapError .toml := by
  rw [load, Traversal.mapError_ok, Traversal.ok_bind, Utf8.decode_encode, Traversal.mapError_ok,
    Traversal.ok_bind, h]

theorem ofYaml_of_ok {document : Yaml.Document}
    (htext : Yaml.Document.ofText? text = some document)
    (h : Yaml.readConfig document .root (document.deref (document.root.getD (.omitted none))) =
      .ok rest) : ofYaml text = .ok rest := by
  rw [ofYaml, htext]
  dsimp only
  rw [h]

theorem ofYaml_of_error {document : Yaml.Document} {complaint : Yaml.Complaint}
    (htext : Yaml.Document.ofText? text = some document) (hreadable : document.isReadable = true)
    (h : Yaml.readConfig document .root (document.deref (document.root.getD (.omitted none))) =
      .error complaint) : ofYaml text = .error (.misshapen complaint.message) := by
  rw [ofYaml, htext]
  dsimp only
  rw [h]
  dsimp only
  rw [if_pos hreadable]

theorem ofToml_of_ok {document : Toml.Value} (htext : Toml.ofText? text = some document)
    (h : Toml.readConfig document = .ok rest) : ofToml text = .ok rest := by
  rw [ofToml, htext]
  dsimp only
  rw [h]
  rfl

/-- The result of loading, by the value for the worker count in a YAML document. -/
structure YamlOutcome (document : Yaml.Document) (key node : Yaml.Node) (value : Yaml.Value)
    (rest : Config) (loaded : Except ConfigError Config) : Prop where
  /-- A null without quotes is as good as no entry. -/
  absent (h : (document.deref node).isAbsent = true) : LeavesCount loaded rest
  integer (n : Int64) (h : value = .integer n.toInt) : FixesCount loaded rest n
  other (hpresent : (document.deref node).isAbsent = false)
    (hother : ∀ n : Int64, value ≠ .integer n.toInt) (h : value.Showable) :
    ∃ shown, value.toJson? = some shown ∧ RefusesCount loaded rest shown
  /-- The document is refused. -/
  unfit (h : ¬ value.Showable) : loaded = .error (.yaml (.misshapen
    (Yaml.unfit (Yaml.Path.root.key key.label) value).message))

/-- The result of loading, by the value for the worker count in a TOML document. -/
structure TomlOutcome (value : Toml.Value) (rest : Config) (loaded : Except ConfigError Config) :
    Prop where
  integer (n : Int64) (h : value = .integer n) : FixesCount loaded rest n
  other (h : ∀ n, value ≠ .integer n) : RefusesCount loaded rest value.toJson

/-- Loading a YAML document with an entry for the worker count has the result `YamlOutcome`. -/
theorem YamlOutcome.of_asks {document : Yaml.Document} {key node : Yaml.Node}
    (hpath : ConfigFormat.ofPath path = .yaml)
    (htext : Yaml.Document.ofText? text = some document)
    (h : document.Asks (some (key, node)) rest) :
    ∃ value, document.meaning node = some value ∧
      YamlOutcome document key node value rest (load path (.ok (Utf8.encode text))) := by
  obtain ⟨before, after, tag, hroot, hkey, hothers, hrest⟩ := h.root
  have hnone := Yaml.workers_of_readConfig hothers hrest
  have hread := Yaml.readConfig_insert (hkey (key, node) rfl) hothers hrest
  dsimp only at hread
  obtain ⟨value, hvalue⟩ := Yaml.Document.exists_meaning h.readable hroot
    (List.mem_append_right before List.mem_cons_self)
  have hload (workers : Option WorkerCount)
      (hcount : Yaml.readOptional (Yaml.readWorkers document) (Yaml.Path.root.key key.label)
        (document.deref node) = .ok workers) :
      load path (.ok (Utf8.encode text)) = .ok { rest with workers } := by
    rw [hcount] at hread
    rw [load_yaml hpath, ofYaml_of_ok htext (hroot ▸ hread)]
    rfl
  have hcount (hpresent : (document.deref node).isAbsent = false) :
      Yaml.readOptional (Yaml.readWorkers document) (Yaml.Path.root.key key.label)
        (document.deref node) = (Yaml.readWorkers document (Yaml.Path.root.key key.label)
          (document.deref node)).map some := by
    rw [Yaml.readOptional, hpresent]
    rfl
  refine ⟨value, hvalue, ?_⟩
  constructor
  case absent =>
    intro habsent
    refine .of_eq (hload rest.workers ?_) hnone
    rw [Yaml.readOptional, habsent, hnone]
    rfl
  case integer =>
    rintro n rfl
    have hpresent := Yaml.isAbsent_eq_false hvalue (by simp)
    refine .of_eq (hload _ ?_)
    rw [hcount hpresent, Yaml.readWorkers_of_integer hvalue]
    rfl
  case other =>
    intro hpresent hother hshowable
    obtain ⟨shown, hshown⟩ := Option.isSome_iff_exists.mp hshowable.isSome_toJson?
    refine ⟨shown, hshown, RefusesCount.of_eq (hload _ ?_)⟩
    rw [hcount hpresent, Yaml.readWorkers_of_toJson? hvalue hother hshown]
    rfl
  case unfit =>
    intro hunfit
    have hpresent := Yaml.isAbsent_eq_false hvalue fun hnull => hunfit (hnull ▸ .null)
    rw [hcount hpresent, Yaml.readWorkers_of_not_showable hvalue hunfit] at hread
    rw [load_yaml hpath, ofYaml_of_error htext h.readable (hroot ▸ hread)]
    rfl

/-- Loading a TOML document with an entry for the worker count has the result `TomlOutcome`. -/
theorem TomlOutcome.of_asks {document value : Toml.Value} (hpath : ConfigFormat.ofPath path = .toml)
    (htext : Toml.ofText? text = some document) (h : document.Asks (some value) rest) :
    TomlOutcome value rest (load path (.ok (Utf8.encode text))) := by
  obtain ⟨origin, before, after, rfl, hothers, hrest⟩ := h
  have hload : load path (.ok (Utf8.encode text)) =
      .ok { rest with workers := some (Toml.readWorkers value) } := by
    rw [load_toml hpath, ofToml_of_ok htext (Toml.readConfig_insert hothers hrest)]
    rfl
  constructor
  case integer =>
    rintro n rfl
    exact .of_eq hload
  case other =>
    intro hother
    rw [Toml.readWorkers_of_ne hother] at hload
    exact .of_eq hload

/-- A document for the serial backend with a worker count. -/
def serialDocument (node : Yaml.Node) : Yaml.Document where
  root := some (.mapping [(.scalar "backend" .plain none, .scalar "serial" .plain none),
    (.scalar "n_workers" .plain none, node)] none)
  anchors := []

theorem asks_serialDocument {node : Yaml.Node} (h : (serialDocument node).isReadable = true) :
    (serialDocument node).Asks (some (.scalar "n_workers" .plain none, node))
      (.ofKind .serial) := by
  refine ⟨h, [(.scalar "backend" .plain none, .scalar "serial" .plain none)], [], none, rfl, ?_, ?_,
    rfl⟩
  · rintro entry ⟨⟩
    exact ⟨.plain, none, rfl⟩
  · intro other hmem
    rw [List.append_nil, List.mem_singleton] at hmem
    subst hmem
    rintro ⟨style, tag, h⟩
    exact absurd h (by simp [Yaml.Document.deref])

end Config

end Fanout
