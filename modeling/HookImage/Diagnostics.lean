/-
# Diagnostics

What was noticed on the way: by whom, how grave, and about which method or mechanism.
A reconstruction does not stop at a problem it can recover from; it notes it and goes on.
-/

import HookImage.Identity

namespace HookImage

/-- How grave an entry is. -/
inductive Severity where
  | info | warning | error
deriving DecidableEq

/-- Which part of the work an entry is about. -/
inductive Topic where
  | registry | owner | classify | container | body | transform | imports | validation
  | image | general
deriving DecidableEq

/-- The label of a severity. -/
def Severity.label : Severity → String
  | info => "INFO"
  | warning => "WARN"
  | error => "ERROR"

/-- Every severity. -/
def Severity.all : List Severity := [info, warning, error]

/-- The label of a topic. -/
def Topic.label : Topic → String
  | registry => "Registry"
  | owner => "Owner"
  | classify => "Classify"
  | container => "Container"
  | body => "Body"
  | transform => "Transform"
  | imports => "Import"
  | validation => "Validation"
  | image => "Image"
  | general => "General"

/-- Every topic. -/
def Topic.all : List Topic :=
  [registry, owner, classify, container, body, transform, imports, validation, image, general]

/-- An entry. -/
structure Diagnostic where
  severity : Severity
  topic : Topic
  message : String
  /-- The method that the entry is about. -/
  method : Option MethodId := none
  /-- The interception mechanism that the entry is about. -/
  handle : Option HandleId := none
deriving DecidableEq

/-- An entry on one line. -/
def Diagnostic.text (d : Diagnostic) : String :=
  let method := match d.method with
    | some m => s!" (method: {m.text})"
    | none => ""
  let handle := match d.handle with
    | some h => s!" (handle: {h.text})"
    | none => ""
  s!"[{d.severity.label}] {d.topic.label}: {d.message}{method}{handle}"

/-- An entry as it is passed on to a logger: its level and the line. -/
def Diagnostic.logLine (d : Diagnostic) : String :=
  s!"{d.severity.label} {d.topic.label}: {d.message}"

/-- The entries in the order in which they were made. -/
abbrev Diagnostics := Array Diagnostic

namespace Diagnostics

/-- The entries of a severity. -/
def ofSeverity (ds : Diagnostics) (s : Severity) : Diagnostics := ds.filter (·.severity == s)

/-- The entries about a topic. -/
def ofTopic (ds : Diagnostics) (t : Topic) : Diagnostics := ds.filter (·.topic == t)

/-- The entries that are errors. -/
def errors (ds : Diagnostics) : Diagnostics := ds.ofSeverity .error

/-- The entries that are warnings. -/
def warnings (ds : Diagnostics) : Diagnostics := ds.ofSeverity .warning

/-- The entries that only inform. -/
def infos (ds : Diagnostics) : Diagnostics := ds.ofSeverity .info

/-- The entries under a heading, each on a line of its own; nothing if there are none. -/
def listing (heading : String) (ds : Diagnostics) : String :=
  if ds.isEmpty then ""
  else s!"\n{heading}:\n" ++ String.join (ds.toList.map fun d => s!"  {d.text}\n")

/-- The counts, followed by the errors and the warnings. -/
def summary (ds : Diagnostics) : String :=
  s!"Diagnostics: {ds.errors.size} error(s), {ds.warnings.size} warning(s), " ++
    s!"{ds.infos.size} info(s)\n" ++ listing "Errors" ds.errors ++
    listing "Warnings" ds.warnings

end Diagnostics
end HookImage
