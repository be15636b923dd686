/-
The schema of policy documents, for editors and validators.

* `Document.schema`: a JSON Schema that a policy document satisfies.
-/
import FileBroker.Document

namespace FileBroker.Document

open Json (Value)

/-- A list of names as a JSON value. -/
def nameList (names : List String) : Value := .array (names.map .string)

/-- The schema of a string that is one of some names. -/
def enumeration (names : List String) : List (String × Value) :=
  [("enum", nameList names), ("type", .string "string")]

/-- The schema of values that satisfy a named definition. -/
def reference (name : String) : Value := .object [("$ref", .string ("#/definitions/" ++ name))]

/-- The schema of arrays whose items satisfy a named definition. -/
def arrayOf (name : String) : Value :=
  .object [("items", reference name), ("type", .string "array")]

/-- The names of the access classes that need no explanation. -/
def plainClasses : List String :=
  (AccessClass.all.filter fun c => !c.temporary).map AccessClass.name

/-- The schema of access classes. -/
def accessSchema : Value :=
  .object [("oneOf", .array [
    .object (enumeration plainClasses),
    .object (("description", .string ("Created with " ++ Json.ticked "O_CREAT|O_EXCL" ++
      " and unlinked by the broker right after opening.")) ::
      enumeration [AccessClass.readWriteCreateTemporary.name])])]

/-- The schema of permissions. -/
def permissionSchema : Value :=
  .object [
    ("additionalProperties", .boolean false),
    ("properties", .object [
      ("access", reference "FileAccess"),
      ("allow_stat_with_intermediates",
        .object [("default", .boolean false), ("type", .string "boolean")]),
      ("path", .object [("type", .string "string")])]),
    ("required", nameList ["access", "path"]),
    ("type", .string "object")]

/-- The schema of documents. -/
def schema : Value :=
  .object [
    ("$schema", .string "http://json-schema.org/draft-07/schema#"),
    ("title", .string layout.title),
    ("type", .string "object"),
    ("required", nameList ["commands", "permissions"]),
    ("properties", .object [
      ("commands", arrayOf "BrokerCommand"),
      ("denied_errno", .object [
        ("default", .string DeniedErrno.eperm.name),
        ("allOf", .array [reference "DeniedErrno"])]),
      ("permissions", arrayOf "PermissionEntry")]),
    ("additionalProperties", .boolean false),
    ("definitions", .object [
      ("BrokerCommand", .object (enumeration (Command.names.map Prod.fst))),
      ("DeniedErrno", .object (enumeration (DeniedErrno.names.map Prod.fst))),
      ("FileAccess", accessSchema),
      ("PermissionEntry", permissionSchema)])]

end FileBroker.Document
