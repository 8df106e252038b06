import Fanout.Config.Load
import Fanout.Proofs.Traversal

/-!
# The worker count among the fields

Reading the field of the worker count commutes with reading any other field (`ConfigFields.Aside`).
So a document that contains it is read as the configuration of the other fields with the worker
count set, or fails if the worker count cannot be read: `Yaml.readConfig_insert` and
`Toml.readConfig_insert`.
-/

namespace Fanout

namespace ConfigFields

variable {ε α : Type}

/-- `fields` with another worker count. -/
def withWorkers (workers : Option (Option WorkerCount)) (fields : ConfigFields) : ConfigFields :=
  { fields with workers }

theorem toConfig_withWorkers {fields : ConfigFields} {rest : Config}
    (workers : Option (Option WorkerCount)) (h : fields.toConfig = .ok rest) :
    (fields.withWorkers workers).toConfig = .ok { rest with workers := workers.join } := by
  obtain ⟨backend, hbackend, h⟩ := Traversal.bind_eq_ok_iff.mp h
  cases h
  exact Traversal.bind_eq_ok_iff.mpr ⟨backend, hbackend, rfl⟩

/-- `toConfig` takes the worker count from its field. -/
theorem workers_of_toConfig {fields : ConfigFields} {rest : Config}
    (h : fields.toConfig = .ok rest) : rest.workers = fields.workers.join := by
  obtain ⟨backend, -, h⟩ := Traversal.bind_eq_ok_iff.mp h
  cases h
  rfl

/-- `withWorkers` commutes with putting another field. -/
theorem bind_withWorkers (read : Except ε α) (put : α → ConfigFields)
    (workers : Option (Option WorkerCount)) :
    (do let a ← read; return (put a).withWorkers workers) =
      (do let a ← read; return put a : Except ε ConfigFields).map (withWorkers workers) := by
  cases read with
  | error e => rfl
  | ok a => rfl

section Entries

variable {read : ConfigFields → α → Except ε ConfigFields}

/-- Reading `entry` keeps the worker count and does not depend on it. -/
def Aside (read : ConfigFields → α → Except ε ConfigFields) (entry : α) : Prop :=
  ∀ fields workers, read (withWorkers workers fields) entry =
    (read fields entry).map (withWorkers workers)

variable {before after : List α} {fields : ConfigFields}

/-- Entries that are all `Aside` leave the worker count open. -/
theorem workers_of_foldlM {entries : List α} (hentries : ∀ entry ∈ entries, Aside read entry)
    (h : entries.foldlM read .empty = .ok fields) : fields.workers = none := by
  -- without a count from the beginning, taking it away changes nothing
  have hsame := Traversal.foldlM_commute (g := withWorkers none)
    (fun fields entry hmem => hentries entry hmem fields none) empty
  rw [show empty.withWorkers none = empty from rfl, h] at hsame
  injection hsame with hsame
  rw [hsame]
  rfl

/-- Among entries that are `Aside`, one about the worker count adds `withWorkers` to the result of
reading the others. -/
theorem foldlM_insert {entry : α} {count : Except ε (Option WorkerCount)}
    (hothers : ∀ other ∈ before ++ after, Aside read other)
    (hentry : ∀ fields : ConfigFields, fields.workers = none →
      read fields entry = count.map fun workers => fields.withWorkers (some workers))
    (h : (before ++ after).foldlM read .empty = .ok fields) :
    (before ++ entry :: after).foldlM read .empty =
      count.map fun workers => fields.withWorkers (some workers) := by
  obtain ⟨hbefore, hafter⟩ := List.forall_mem_append.mp hothers
  rw [List.foldlM_append] at h
  obtain ⟨mid, hmid, h⟩ := Traversal.bind_eq_ok_iff.mp h
  rw [List.foldlM_append, hmid, Traversal.ok_bind, List.foldlM_cons,
    hentry mid (workers_of_foldlM hbefore hmid)]
  cases count with
  | error e => rfl
  | ok workers =>
    -- the entries behind it carry the count along
    have hrest := Traversal.foldlM_commute (g := withWorkers (some workers))
      (fun fields other hmem => hafter other hmem fields (some workers)) mid
    rw [h] at hrest
    exact hrest

end Entries

end ConfigFields

namespace Yaml

variable {document : Document} {path : Path}

/-- One step of `readConfig`, over one entry of the mapping. -/
def readMember (document : Document) (path : Path) (fields : ConfigFields) (entry : Node × Node) :
    Except Complaint ConfigFields := do
  let name ← readText "field identifier" path (document.deref entry.1)
  readEntry document path fields name (path.key entry.1.label) (document.deref entry.2)

theorem readConfig_mapping (entries : List (Node × Node)) (tag : Option String) :
    readConfig document path (.mapping entries tag) =
      entries.foldlM (readMember document path) .empty >>= fun fields =>
        fields.toConfig.mapError (⟨path, ·⟩) := rfl

/-- The key of the entry is `name`. -/
def Document.Names (document : Document) (name : String) (entry : Node × Node) : Prop :=
  ∃ style tag, document.deref entry.1 = .scalar name style tag

/-- An entry that does not name the worker count is `Aside`. -/
theorem aside_of_not_names {entry : Node × Node} (h : ¬ document.Names "n_workers" entry) :
    ConfigFields.Aside (readMember document path) entry := by
  intro fields workers
  unfold readMember
  cases hkey : document.deref entry.1 with
  | scalar name style tag =>
    have hname : name ≠ "n_workers" := by
      rintro rfl
      exact h ⟨style, tag, hkey⟩
    rw [readText, Traversal.ok_bind, Traversal.ok_bind]
    unfold readEntry
    split
    case h_1 => exact ConfigFields.bind_withWorkers _ (fun backend => { fields with backend }) _
    case h_2 => exact absurd rfl hname
    case h_3 => exact ConfigFields.bind_withWorkers _ (fun chunkSize => { fields with chunkSize }) _
    case h_4 => exact ConfigFields.bind_withWorkers _ (fun worker => { fields with worker }) _
    case h_5 => exact ConfigFields.bind_withWorkers _ (fun logging => { fields with logging }) _
    case h_6 => rfl
  | _ => rfl

/-- The first entry that names the worker count is read by `readWorkers`. -/
theorem readMember_of_names {entry : Node × Node} (h : document.Names "n_workers" entry)
    {fields : ConfigFields} (hfields : fields.workers = none) :
    readMember document path fields entry =
      (readOptional (readWorkers document) (path.key entry.1.label) (document.deref entry.2)).map
        fun workers => fields.withWorkers (some workers) := by
  obtain ⟨style, tag, hkey⟩ := h
  rw [readMember, hkey, readText, Traversal.ok_bind, readEntry, hfields]
  dsimp only [setField, Option.isSome_none]
  rw [if_neg (by decide)]
  cases readOptional (readWorkers document) (path.key entry.1.label) (document.deref entry.2) with
  | error e => rfl
  | ok workers => rfl

/-- Without an entry for it, the worker count is `none`. -/
theorem workers_of_readConfig {entries : List (Node × Node)} {tag : Option String} {rest : Config}
    (hentries : ∀ entry ∈ entries, ¬ document.Names "n_workers" entry)
    (h : readConfig document path (.mapping entries tag) = .ok rest) : rest.workers = none := by
  rw [readConfig_mapping] at h
  obtain ⟨fields, hfields, h⟩ := Traversal.bind_eq_ok_iff.mp h
  rw [ConfigFields.workers_of_toConfig (Traversal.mapError_eq_ok_iff.mp h),
    ConfigFields.workers_of_foldlM (fun entry hmem => aside_of_not_names (hentries entry hmem))
      hfields]
  rfl

/-- `readConfig` with an entry for the worker count is `readConfig` without it, with the count put
in. -/
theorem readConfig_insert {before after : List (Node × Node)} {entry : Node × Node}
    {tag : Option String} {rest : Config} (hentry : document.Names "n_workers" entry)
    (hothers : ∀ other ∈ before ++ after, ¬ document.Names "n_workers" other)
    (h : readConfig document path (.mapping (before ++ after) tag) = .ok rest) :
    readConfig document path (.mapping (before ++ entry :: after) tag) =
      (readOptional (readWorkers document) (path.key entry.1.label) (document.deref entry.2)).map
        fun workers => { rest with workers } := by
  rw [readConfig_mapping] at h ⊢
  obtain ⟨fields, hfields, h⟩ := Traversal.bind_eq_ok_iff.mp h
  rw [ConfigFields.foldlM_insert (fun other hmem => aside_of_not_names (hothers other hmem))
    (fun fields hnone => readMember_of_names hentry hnone) hfields]
  cases readOptional (readWorkers document) (path.key entry.1.label) (document.deref entry.2) with
  | error e => rfl
  | ok workers =>
    have hconfig := ConfigFields.toConfig_withWorkers (some workers)
      (Traversal.mapError_eq_ok_iff.mp h)
    exact Traversal.mapError_eq_ok_iff.mpr hconfig

end Yaml

namespace Toml

/-- An entry that does not name the worker count is `Aside`. -/
theorem aside_of_ne {entry : String × Value} (h : entry.1 ≠ "n_workers") :
    ConfigFields.Aside readEntry entry := by
  intro fields workers
  obtain ⟨name, value⟩ := entry
  unfold readEntry
  dsimp only
  split
  case h_1 =>
    exact ConfigFields.bind_withWorkers _ (fun backend => { fields with backend := some backend }) _
  case h_2 => exact absurd rfl h
  case h_3 =>
    exact ConfigFields.bind_withWorkers _
      (fun size => { fields with chunkSize := some (some size) }) _
  case h_4 =>
    exact ConfigFields.bind_withWorkers _
      (fun worker => { fields with worker := some (some worker) }) _
  case h_5 =>
    exact ConfigFields.bind_withWorkers _ (fun logging => { fields with logging := some logging }) _
  case h_6 => rfl

/-- Without an entry for it, the worker count is `none`. -/
theorem workers_of_readConfig {origin : Origin} {entries : List (String × Value)} {rest : Config}
    (hentries : ∀ entry ∈ entries, entry.1 ≠ "n_workers")
    (h : readConfig (.table origin entries) = .ok rest) : rest.workers = none := by
  obtain ⟨fields, hfields, h⟩ := Traversal.bind_eq_ok_iff.mp h
  rw [ConfigFields.workers_of_toConfig h,
    ConfigFields.workers_of_foldlM (fun entry hmem => aside_of_ne (hentries entry hmem)) hfields]
  rfl

/-- `readConfig` with an entry for the worker count is `readConfig` without it, with the count put
in. -/
theorem readConfig_insert {origin : Origin} {before after : List (String × Value)} {value : Value}
    {rest : Config} (hothers : ∀ other ∈ before ++ after, other.1 ≠ "n_workers")
    (h : readConfig (.table origin (before ++ after)) = .ok rest) :
    readConfig (.table origin (before ++ ("n_workers", value) :: after)) =
      .ok { rest with workers := some (readWorkers value) } := by
  obtain ⟨fields, hfields, h⟩ := Traversal.bind_eq_ok_iff.mp h
  have hcount (fields : ConfigFields) (_ : fields.workers = none) :
      readEntry fields ("n_workers", value) =
        (Except.ok (some (readWorkers value))).map fun workers =>
          fields.withWorkers (some workers) := rfl
  have hinsert := ConfigFields.foldlM_insert
    (fun other hmem => aside_of_ne (hothers other hmem)) hcount hfields
  exact Traversal.bind_eq_ok_iff.mpr ⟨_, hinsert, ConfigFields.toConfig_withWorkers _ h⟩

end Toml

end Fanout
