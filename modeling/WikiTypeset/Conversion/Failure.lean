import WikiTypeset.Article.Typesetter
import WikiTypeset.Files.Tree

/-!
# Why conversions fail

The causes for which a conversion, or a part of one, comes to no result, with their wording and the status with which
the command line ends. Main definitions: `Failure`, `Failure.message`, `Failure.kind` and `FailureKind.exitStatus`.
-/

namespace WikiTypeset

open Files Options Text

/-- How a value of the metadata is not of the shape that is asked for. -/
inductive ShapeFault
  /-- It has no member of that name. -/
  | noMember (v : Json) (name : String)
  /-- It has no items. -/
  | noItems (v : Json)
  /-- It is no text. -/
  | notText (v : Json)
  /-- It cannot name anything. -/
  | noName (v : Json)
  deriving Repr

/-- The name of the kind of a value in messages. -/
def Json.kindName : Json → String
  | null => "NoneType"
  | bool _ => "bool"
  | int _ => "int"
  | real _ => "float"
  | text _ => "str"
  | list _ => "list"
  | object _ => "dict"

/-- The wording of a fault of shape. -/
def ShapeFault.message : ShapeFault → String
  | noMember v name => quotedString v.kindName ++ " object has no attribute " ++ quotedString name
  | noItems v => quotedString v.kindName ++ " object is not iterable"
  | notText v => "expected string or bytes-like object, got " ++ quotedString v.kindName
  | noName v => "unhashable type: " ++ quotedString v.kindName

/-- Why a store cannot be read at all. -/
inductive StoreFault
  /-- The file is empty. -/
  | noTable
  /-- The file is of another kind. -/
  | notStore
  deriving DecidableEq, Repr

/-- The wording of a fault of a store. -/
def StoreFault.message : StoreFault → String
  | noTable => "no such table: kv_table"
  | notStore => "file is not a database"

/-- Why a conversion fails. -/
inductive Failure
  | options (cause : OptionsError)
  /-- A component is given options of another kind than it expects. -/
  | wrongOptions (component expected received : String) (message? : Option String)
  | bundleMissing (bundle : Path)
  | cannotLink (cause : FileError)
  | badArchive (archive : Path)
  /-- The bundle has no outline. -/
  | noOutline
  /-- The outline is not well formed. -/
  | badOutline
  | outlineNotObject
  | storeMissing (store : Path)
  | badStore (fault : StoreFault)
  /-- A key that no store can have. -/
  | badStoreKey (key : Json)
  /-- A number that is too large to be the key of a store. -/
  | largeStoreKey (key : Int)
  /-- A value in a store is not well formed. -/
  | badStoreValue (key : Json) (store : String)
  | articleMissing (title revision : Json)
  | shape (fault : ShapeFault)
  | article (cause : Article.ArticleError)
  | file (cause : FileError)
  /-- A program has ended with a status other than zero. -/
  | program (command : List String) (status : Int)
  /-- A component misses programs that it needs. -/
  | dependency (component : String) (missing : List String) (message? : Option String)
  | compilerFailed (status : Int) (excerpt : String)
  | noPdf (excerpt : String)
  | cannotWrite (cause : FileError)
  deriving Repr

/-- The kinds of failures. -/
inductive FailureKind
  /-- A program is missing. -/
  | dependency
  /-- Options are not valid. -/
  | validation
  /-- A value is out of its range. -/
  | value
  /-- A file of the bundle, or the result, cannot be used. -/
  | file
  /-- The file system refuses something. -/
  | system
  /-- Something that is read is not well formed. -/
  | parsing
  /-- No LaTeX comes about. -/
  | rendering
  /-- No PDF comes about. -/
  | compilation
  | other
  deriving DecidableEq, Repr

/-- The status with which the command line ends. -/
def FailureKind.exitStatus : FailureKind → Nat
  | dependency => 2
  | validation | value => 3
  | file | system => 4
  | parsing => 6
  | rendering | compilation => 7
  | other => 1

namespace Failure

/-- The wording of a failure. -/
def message : Failure → String
  | options cause => cause.message
  | wrongOptions component expected received message? =>
    message?.getD (quotedName component ++ " expects options of type " ++ expected ++ ", but received " ++
      received ++ ".")
  | bundleMissing bundle => "Bundle not found: " ++ bundle.toText
  | cannotLink cause => "Cannot link bundle directory: " ++ cause.message
  | badArchive archive => "Not a valid bundle archive: " ++ archive.toText
  | noOutline => "Bundle has no metabook.json"
  | badOutline => "Malformed metabook"
  | outlineNotObject => "Metabook must be a JSON object"
  | storeMissing store => "Bundle database not found: " ++ store.toText
  | badStore fault => fault.message
  | badStoreKey key => "Error binding parameter 1: type " ++ quotedString key.kindName ++ " is not supported"
  | largeStoreKey key => "the key " ++ toString key ++ " is too large"
  | badStoreValue key store => "Malformed JSON for key " ++ key.quoted ++ " in " ++ store
  | articleMissing title revision =>
    "Article " ++ title.quoted ++ " (revision " ++ revision.display ++ ") missing from parsoid.db"
  | shape fault => fault.message
  | article cause => cause.message
  | file cause => cause.message
  | program command status =>
    "Command '" ++ quotedList command ++ "' returned non-zero exit status " ++ toString status ++ "."
  | dependency component missing message? =>
    message?.getD (quotedName component ++ " requires: " ++ String.intercalate ", " missing)
  | compilerFailed status _ => "xelatex failed with exit status " ++ toString status
  | noPdf _ => "xelatex produced no PDF"
  | cannotWrite cause => "Cannot write output: " ++ cause.message
where
  /-- A name between plain quotes. -/
  quotedName (name : String) : String := "'" ++ name ++ "'"

/-- The kind of the failure of an article. -/
def articleKind : Article.ArticleError → FailureKind
  | .emit (.analysis _) => .other
  | .emit _ => .rendering
  | .reference _ => .value
  | _ => .other

/-- The kind of the failure of options. -/
def optionsKind : OptionsError → FailureKind
  | .unknownName _ | .badKind _ => .other
  | _ => .value

/-- The kind of a failure. -/
def kind : Failure → FailureKind
  | options cause => optionsKind cause
  | wrongOptions .. => .validation
  | bundleMissing _ | cannotLink _ | badArchive _ | noOutline | storeMissing _ => .file
  | articleMissing .. | cannotWrite _ => .file
  | file _ => .system
  | badOutline | outlineNotObject | badStoreValue .. => .parsing
  | article cause => articleKind cause
  | dependency .. => .dependency
  | compilerFailed .. | noPdf _ => .compilation
  | badStore _ | badStoreKey _ | largeStoreKey _ | shape _ | program .. => .other

/-- Whether the conversion of one image may fail so without ending the whole. -/
def isConverterFault : Failure → Bool
  | file _ | program .. => true
  | _ => false

end Failure

end WikiTypeset
