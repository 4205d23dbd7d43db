import WikiTypeset.Bundle.Store
import WikiTypeset.Bundle.Workspace
import WikiTypeset.Html.Annotation
import WikiTypeset.Media.SafeName

/-!
# Preparing images

The images of a bundle get file names that TeX reads without trouble, and formats that it can include: GIF becomes
PNG, SVG becomes PDF, JPEG loses its resolution, and PDF is split into pages. An image that cannot be converted is
left out. Main definitions: `prepareImages`, `renameFile`.
-/

namespace WikiTypeset.Media

open Files Text

/-- Runs a program, which is logged. -/
def runTool (command : List String) : Work Unit := do
  Work.say .debug .media ("Running " ++ String.intercalate " " command)
  Work.run command

/-- The last name of a path. -/
def fileName (p : Path) : String := p.names.getLast?.getD ""

/-- Gives a file another name, which is made unique if it is taken; the name that it has got. -/
def renameFile (directory : Path) (old new : String) : Work String := do
  let plain := directory.child new
  let target ← if ← Work.pathIsTaken plain then Work.makeFreshFile directory "" new else pure plain
  Work.moveFile (directory.child old) target
  return fileName target

/-- A name without any occurrence of an ending, in any case of letters. -/
def withoutEnding (ending : List Char) : Nat → List Char → List Char
  | _, [] => []
  | skip + 1, _ :: s => withoutEnding ending skip s
  | 0, c :: s =>
    match Html.Element.afterWord? ending (c :: s) with
    | some _ => withoutEnding ending (ending.length - 1) s
    | none => c :: withoutEnding ending 0 s

/-- The start of the name of what a file is converted to. -/
def stemOf (ending : String) (name : String) : String := String.ofList (withoutEnding ending.toList 0 name.toList)

/-- Converts a GIF to PNG. -/
def convertGif (directory : Path) (name : String) : Work String := do
  let target ← Work.makeFreshFile directory (stemOf ".gif" name) ".png"
  runTool ["convert", (directory.child name).toText, target.toText]
  return fileName target

/-- Converts an SVG to PDF with the first of two programs that can. -/
def convertSvg (directory : Path) (name : String) : Work String := do
  let target ← Work.makeFreshFile directory (stemOf ".svg" name) ".pdf"
  let source := (directory.child name).toText
  match ← (runTool ["rsvg-convert", "-f", "pdf", "-o", target.toText, source]).attempt with
  | .ok () => pure ()
  | .error e =>
    if !e.isConverterFault then throw e
    Work.say .debug .media ("rsvg-convert failed for " ++ name ++ " (" ++ e.message ++ "), trying inkscape")
    runTool ["inkscape", "-f", source, "-A", target.toText]
  return fileName target

/-- The resolution that a JPEG is given. -/
def jpegDensity : String := "600"

/-- Takes the resolution of a JPEG away, and its metadata if they are not to be kept. -/
def convertJpeg (directory : Path) (name : String) (keepMetadata : Bool) : Work String := do
  let p := directory.child name
  unless keepMetadata do
    let source := directory.child (← renameFile directory name ("X" ++ name))
    runTool ["jpegtran", "-optimize", "-copy", "none", "-outfile", p.toText, source.toText]
    Work.removeFile source
  runTool ["mogrify", "-density", jpegDensity, p.toText]
  return name

/-- Splits a PDF into a directory of its pages. -/
def separatePdf (directory : Path) (name : String) : Work String := do
  let source := directory.child (← renameFile directory name ("X" ++ name))
  Work.makeDirectory (directory.child name)
  runTool ["pdfseparate", source.toText, ((directory.child name).child "%d.pdf").toText]
  Work.removeFile source
  return name

/-- Prepares one image of a type; the name that its file has got. -/
def prepareImage (directory : Path) (keepMetadata : Bool) (name mime : Json) : Work String := do
  let name ← match name with
    | .text s => pure s
    | v => throw (.shape (.notText v))
  let safe := String.ofList (safeName name.toList)
  let name ← if safe = name then pure name else renameFile directory name safe
  match mime with
  | .text type =>
    if type = "image/gif" then convertGif directory name
    else if type.startsWith "image/svg" then convertSvg directory name
    else if type = "image/jpeg" then convertJpeg directory name keepMetadata
    else if type = "application/pdf" then separatePdf directory name
    else return name
  | v => if v.isTruthy then throw (.shape (.noMember v "startswith")) else return name

/-- The file of each resource. Resources are named by texts as a rule. -/
abbrev ImageMap := List (Json × String)

/-- The map with a file for a resource. -/
def ImageMap.put (m : ImageMap) (key : Json) (file : String) : ImageMap :=
  if m.any fun (k, _) => k.same key then m.map fun (k, f) => if k.same key then (k, file) else (k, f)
  else m ++ [(key, file)]

/-- The files of the resources that are named by texts. -/
def ImageMap.byText (m : ImageMap) : List (String × String) :=
  m.filterMap fun
    | (.text key, file) => some (key, file)
    | _ => none

/-- An image that a bundle lists. -/
structure Listed where
  key : Json
  info : Json
  name : Json

/-- Whether a key is the address of a resource. -/
def isAddress (key : String) : Bool := key.startsWith "http://" || key.startsWith "https://"

/-- The image that an entry of the store of images lists, if it names a file. Where the key is no address, the entry
may name the resource. -/
def listed? (key : String) (info : Json) : Option Listed :=
  match info.field? "filename" with
  | some name =>
    if !name.isTruthy then none
    else some { key := if isAddress key then .text key else (info.field? "resource").getD (.text key), info, name }
  | none => none

/-- Prepares a listed image; the result or the failure. -/
def attemptListed (directory : Path) (keepMetadata : Bool) (image : Listed) : Work (Except Failure String) :=
  (prepareImage directory keepMetadata image.name ((image.info.field? "mime").getD .null)).attempt

/-- Enters the file of an image into the map, or logs that there is none. -/
def enter (m : ImageMap) (image : Listed) (result : Except Failure String) : Work ImageMap := do
  match result with
  | .ok file =>
    match image.key with
    | .list _ | .object _ => throw (.shape (.noName image.key))
    | key => return m.put key file
  | .error e =>
    if !e.isConverterFault then throw e
    Work.say .error .media ("Could not convert image '" ++ image.name.display ++ "': " ++
      ((image.info.field? "short").getD (.text "")).display ++ " (" ++ e.message ++ ")")
    return m

/-- The name of the store of images. -/
def storeName : String := "imageinfo.db"

/-- Prepares all images of the bundle in a build directory. -/
def prepareImages (build : Path) (o : ConversionOptions) : Work ImageMap := do
  let directory := Workspace.imagesIn build
  let storePath := (Workspace.bundleIn build).child storeName
  unless ← Work.pathIsTaken storePath do
    Work.say .info .media ("Bundle has no " ++ storeName ++ ", skipping media")
    Work.stage 0 "Processing media files"
    return []
  let entries ← (← Store.ofPath storePath).entries
  Work.stage entries.length "Processing media files"
  entries.forM fun (_, info) =>
    let name := (info.field? "filename").getD .null
    Work.report (.step 1 none (if name.isTruthy then name else .text ""))
  let images := entries.filterMap fun (key, info) => listed? key info
  let results ← images.mapM fun image => return (image, ← attemptListed directory o.keepMetadata image)
  let m ← results.foldlM (fun m (image, result) => enter m image result) []
  Work.say .info .media ("Prepared " ++ toString m.length ++ " of " ++ toString images.length ++ " images")
  return m

end WikiTypeset.Media
