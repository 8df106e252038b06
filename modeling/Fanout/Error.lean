/-!
# Errors

What the system reports when a file or a stream cannot be used is an `IoError`, what can go wrong
while a backend is built or used a `BackendError`, and why a configuration could not be loaded or
put to use a `ConfigError`. A `ConfigurationWarning` is a remark about a configuration that is
accepted.
-/

namespace Fanout

/-! ## Input and output -/

/-- The kind of an input or output error. -/
inductive IoKind where
  | notFound
  | permissionDenied
  | invalidData
  /-- Nobody reads the other end any more. -/
  | brokenPipe
  /-- A file stands where a directory is needed. -/
  | notADirectory
  /-- A directory stands where a file is needed. -/
  | isADirectory
  /-- A name the file system does not allow. -/
  | invalidFilename
  | other
deriving DecidableEq, Repr

/-- The name of a kind. -/
def IoKind.name : IoKind → String
  | notFound => "NotFound"
  | permissionDenied => "PermissionDenied"
  | invalidData => "InvalidData"
  | brokenPipe => "BrokenPipe"
  | notADirectory => "NotADirectory"
  | isADirectory => "IsADirectory"
  | invalidFilename => "InvalidFilename"
  | other => "Other"

/-- An input or output error. -/
structure IoError where
  kind : IoKind
  message : String
deriving DecidableEq, Repr

namespace IoError

/-- The texts of the system's error numbers. -/
def systemTexts : List (Nat × String) := [
  (0, "Success"), (1, "Operation not permitted"), (2, "No such file or directory"),
  (3, "No such process"), (4, "Interrupted system call"), (5, "Input/output error"),
  (6, "No such device or address"),
  (7, "Argument list too long"), (8, "Exec format error"), (9, "Bad file descriptor"),
  (10, "No child processes"), (11, "Resource temporarily unavailable"),
  (12, "Cannot allocate memory"), (13, "Permission denied"), (14, "Bad address"),
  (15, "Block device required"), (16, "Device or resource busy"), (17, "File exists"),
  (18, "Invalid cross-device link"), (19, "No such device"), (20, "Not a directory"),
  (21, "Is a directory"), (22, "Invalid argument"), (23, "Too many open files in system"),
  (24, "Too many open files"), (25, "Inappropriate ioctl for device"), (26, "Text file busy"),
  (27, "File too large"), (28, "No space left on device"), (29, "Illegal seek"),
  (30, "Read-only file system"), (31, "Too many links"), (32, "Broken pipe"),
  (33, "Numerical argument out of domain"), (34, "Numerical result out of range"),
  (35, "Resource deadlock avoided"), (36, "File name too long"), (37, "No locks available"),
  (38, "Function not implemented"), (39, "Directory not empty"),
  (40, "Too many levels of symbolic links"), (42, "No message of desired type"),
  (43, "Identifier removed"), (44, "Channel number out of range"), (45, "Level 2 not synchronized"),
  (46, "Level 3 halted"), (47, "Level 3 reset"), (48, "Link number out of range"),
  (49, "Protocol driver not attached"), (50, "No CSI structure available"), (51, "Level 2 halted"),
  (52, "Invalid exchange"), (53, "Invalid request descriptor"), (54, "Exchange full"),
  (55, "No anode"), (56, "Invalid request code"), (57, "Invalid slot"),
  (59, "Bad font file format"), (60, "Device not a stream"), (61, "No data available"),
  (62, "Timer expired"), (63, "Out of streams resources"), (64, "Machine is not on the network"),
  (65, "Package not installed"), (66, "Object is remote"), (67, "Link has been severed"),
  (68, "Advertise error"), (69, "Srmount error"), (70, "Communication error on send"),
  (71, "Protocol error"), (72, "Multihop attempted"), (73, "RFS specific error"),
  (74, "Bad message"), (75, "Value too large for defined data type"),
  (76, "Name not unique on network"), (77, "File descriptor in bad state"),
  (78, "Remote address changed"), (79, "Can not access a needed shared library"),
  (80, "Accessing a corrupted shared library"), (81, ".lib section in a.out corrupted"),
  (82, "Attempting to link in too many shared libraries"),
  (83, "Cannot exec a shared library directly"),
  (84, "Invalid or incomplete multibyte or wide character"),
  (85, "Interrupted system call should be restarted"), (86, "Streams pipe error"),
  (87, "Too many users"), (88, "Socket operation on non-socket"),
  (89, "Destination address required"), (90, "Message too long"),
  (91, "Protocol wrong type for socket"), (92, "Protocol not available"),
  (93, "Protocol not supported"), (94, "Socket type not supported"),
  (95, "Operation not supported"), (96, "Protocol family not supported"),
  (97, "Address family not supported by protocol"), (98, "Address already in use"),
  (99, "Cannot assign requested address"), (100, "Network is down"),
  (101, "Network is unreachable"), (102, "Network dropped connection on reset"),
  (103, "Software caused connection abort"), (104, "Connection reset by peer"),
  (105, "No buffer space available"), (106, "Transport endpoint is already connected"),
  (107, "Transport endpoint is not connected"),
  (108, "Cannot send after transport endpoint shutdown"),
  (109, "Too many references: cannot splice"), (110, "Connection timed out"),
  (111, "Connection refused"), (112, "Host is down"), (113, "No route to host"),
  (114, "Operation already in progress"), (115, "Operation now in progress"),
  (116, "Stale file handle"), (117, "Structure needs cleaning"),
  (118, "Not a XENIX named type file"), (119, "No XENIX semaphores available"),
  (120, "Is a named type file"), (121, "Remote I/O error"), (122, "Disk quota exceeded"),
  (123, "No medium found"), (124, "Wrong medium type"), (125, "Operation canceled"),
  (126, "Required key not available"), (127, "Key has expired"), (128, "Key has been revoked"),
  (129, "Key was rejected by service"), (130, "Owner died"), (131, "State not recoverable"),
  (132, "Operation not possible due to RF-kill"), (133, "Memory page has hardware error")]

/-- The kind of a system error. -/
def kindOfCode (code : Nat) : IoKind :=
  if code = 2 then .notFound
  else if code = 1 ∨ code = 13 then .permissionDenied
  else if code = 20 then .notADirectory
  else if code = 21 then .isADirectory
  else if code = 32 then .brokenPipe
  else if code = 36 then .invalidFilename
  else .other

/-- The error with a number of the system. -/
def ofCode (code : Nat) : IoError :=
  let text := (systemTexts.lookup code).getD s!"Unknown error {code}"
  ⟨kindOfCode code, s!"{text} (os error {code})"⟩

/-- There is no such file or directory. -/
def missing : IoError := ofCode 2

/-- The other end of a pipe is closed. -/
def pipeClosed : IoError := ofCode 32

/-- What should be text is not. -/
def notText : IoError := ⟨.invalidData, "stream did not contain valid UTF-8"⟩

end IoError

/-! ## Backends -/

/-- Why a backend could not be built, or could not apply a function. -/
inductive BackendError where
  | configuration (backend reason : String)
  /-- The build lacks something the backend needs. -/
  | dependencyMissing (backend capability guidance : String)
  /-- Something could not be carried between processes. -/
  | transfer (subject reason : String)
  /-- The function failed on one computation. -/
  | workerExecution (index : Nat) (reason : String)
  | workerSpawn (program : String) (cause : IoError)
  | workerLost (worker : Nat) (reason : String)
  /-- The scheduler itself failed. -/
  | engine (reason : String)
deriving DecidableEq, Repr

namespace BackendError

/-- The text of an error. -/
def message : BackendError → String
  | configuration backend reason => s!"invalid {backend} backend configuration: {reason}"
  | dependencyMissing backend capability guidance =>
    s!"{backend} backend requires the {capability}: {guidance}"
  | transfer subject reason => s!"cannot transfer {subject} across the process boundary: {reason}"
  | workerExecution index reason => s!"work function failed on computation {index}: {reason}"
  | workerSpawn program cause => s!"failed to start worker process '{program}': {cause.message}"
  | workerLost worker reason => s!"worker {worker} was lost: {reason}"
  | engine reason => s!"task-graph engine failure: {reason}"

/-- The error behind an error, if there is one. -/
def source : BackendError → Option IoError
  | workerSpawn _ cause => some cause
  | _ => none

/-- Whether the error arises while a backend is built. -/
def isConstruction : BackendError → Bool
  | configuration .. | dependencyMissing .. => true
  | _ => false

end BackendError

/-- A remark on a configuration that is accepted all the same. -/
structure ConfigurationWarning where
  backend : String
  message : String
deriving DecidableEq, Repr

/-- The text of a warning. -/
def ConfigurationWarning.display (warning : ConfigurationWarning) : String :=
  s!"{warning.backend} backend: {warning.message}"

/-! ## Configurations -/

/-- Why a text is no configuration in its format. -/
inductive DocumentError where
  /-- It is no document of the format at all. -/
  | unreadable
  /-- It is a document, but not a configuration. -/
  | misshapen (reason : String)
deriving DecidableEq, Repr

/-- What is wrong with a document. -/
def DocumentError.message : DocumentError → String
  | unreadable => "not a readable document"
  | misshapen reason => reason

/-- Why a configuration could not be loaded or put to use. -/
inductive ConfigError where
  | io (path : String) (cause : IoError)
  | yaml (cause : DocumentError)
  | toml (cause : DocumentError)
  | unknownBackend (name : String)
  | backend (cause : BackendError)
  | logging (reason : String)
deriving DecidableEq, Repr

namespace ConfigError

/-- The text of an error. -/
def message : ConfigError → String
  | io path cause => s!"failed to read configuration file '{path}': {cause.message}"
  | yaml cause => s!"invalid YAML configuration: {cause.message}"
  | toml cause => s!"invalid TOML configuration: {cause.message}"
  | unknownBackend name =>
    s!"unknown backend '{name}', expected one of: serial, process_pool (multiprocessing), " ++
      "task_graph (dask)"
  | backend cause => cause.message
  | logging reason => s!"failed to initialise logging: {reason}"

/-- The text of the error behind an error, if there is one. -/
def source : ConfigError → Option String
  | io _ cause => some cause.message
  | yaml cause => some cause.message
  | toml cause => some cause.message
  | backend cause => cause.source.map IoError.message
  | unknownBackend _ | logging _ => none

end ConfigError

end Fanout
