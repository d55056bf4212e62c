import Bitfont.CommandLine.Request
import Bitfont.FileTree
import Bitfont.Header
import Bitfont.SizedFont

namespace Bitfont

inductive ReadError where
  | file (error : FileError)
  | notUtf8
deriving DecidableEq, Repr

def ReadError.message : ReadError → String
  | .file error => error.message
  | .notUtf8 => "stream did not contain valid UTF-8"

inductive Failure where
  | reading (path : Octets) (error : ReadError)
  | loading (path : Octets) (error : SizedFont.Fault)
  | typeface (failure : Typeface.Failure RenderStop)
  | blob (fault : Literal.Fault)
  | writing (path : Octets) (error : FileError)
  | printing (error : FileError)
deriving DecidableEq, Repr

namespace Failure

def chain : Failure → List String
  | .reading path error => [s!"error reading {Path.quoted path}", error.message]
  | .loading path error => [s!"error loading {Path.quoted path}", error.message]
  | .typeface failure => failure.chain RenderStop.message
  | .blob fault => ["error serializing font blob", fault.message]
  | .writing path error => [s!"error writing {Path.quoted path}", error.message]
  | .printing error => [error.message]

-- The program ends where an integer overflows, without a report of its own.
def isCrash : Failure → Bool
  | .typeface (.build (.rendering _ .overflow)) => true
  | _ => false

def exitCode (failure : Failure) : Nat := if failure.isCrash then 101 else 1

end Failure

structure Delivery where
  text : Text
  output : Output
  log : List Log.Entry

structure Conversion where
  result : Except Failure Delivery
  log : List Log.Entry

namespace Output

def writtenLog : Output → List Log.Entry
  | .standardOutput => []
  | .file path => [⟨.info, s!"output written to {Path.quoted path}"⟩]

def deliver (output : Output) (text : Text) : Delivery :=
  ⟨text, output, output.writtenLog⟩

end Output

def RasterizeRequest.convert (library : FontLibrary) (request : RasterizeRequest)
    (data : Array UInt8) : Conversion :=
  match SizedFont.load library data request.size with
  | .error error => ⟨.error (.loading request.font error), []⟩
  | .ok sized =>
      let outcome :=
        Typeface.convert sized.render request.format (Path.origin request.font) ()
      { result := (outcome.result.mapError Failure.typeface).map request.output.deliver
        log := sized.loadedEntry :: outcome.log }

def BlobRequest.convert (request : BlobRequest) (data : Array UInt8) : Conversion :=
  let converted := Blob.convert request.format (Path.origin request.input) data
  { result := (converted.mapError Failure.blob).map fun blob => request.output.deliver blob.text
    log := Blob.log request.format data }

namespace HeaderRequest

def scannedLog (request : HeaderRequest) (declarations : List Text) : List Log.Entry :=
  if declarations.isEmpty then
    let source := Path.quoted request.source
    [⟨.warn, s!"no single-line function declarations found in {source}"⟩]
  else []

def createdEntry (request : HeaderRequest) (count : Nat) : Log.Entry :=
  ⟨.info, s!"header file {Path.quoted request.header} created with {count} declarations"⟩

def convert (request : HeaderRequest) (data : Array UInt8) : Conversion :=
  match Utf8.decode? data.toList with
  | none => ⟨.error (.reading request.source .notUtf8), []⟩
  | some source =>
      let declarations := Declaration.ofSource source
      let text := Header.text (Header.guardFor request.header) declarations
      { result :=
          .ok ⟨text, .file request.header, [request.createdEntry declarations.length]⟩
        log := request.scannedLog declarations }

end HeaderRequest

structure Report where
  result : Except Failure Unit
  standardOutput : Octets
  log : List Log.Entry
  files : FileTree

-- The log of a delivery is written when all of it has been taken.
def FileTree.accept (terminal : Outlet) (tree : FileTree) (log : List Log.Entry)
    (delivery : Delivery) : Report :=
  let octets := Utf8.encode delivery.text
  match delivery.output with
  | .standardOutput =>
      let taken := terminal octets
      match taken.result with
      | .error error => ⟨.error (.printing error), taken.kept octets, log, tree⟩
      | .ok () => ⟨.ok (), taken.kept octets, log ++ delivery.log, tree⟩
  | .file path =>
      let (result, after) := tree.write path octets
      match result with
      | .error error => ⟨.error (.writing path error), [], log, after⟩
      | .ok () => ⟨.ok (), [], log ++ delivery.log, after⟩

namespace Request

def input : Request → Octets
  | .rasterize request => request.font
  | .blob request => request.input
  | .header request => request.source

def convert (library : FontLibrary) : Request → Array UInt8 → Conversion
  | .rasterize request => request.convert library
  | .blob request => request.convert
  | .header request => request.convert

def run (library : FontLibrary) (terminal : Outlet) (request : Request) (files : FileTree) : Report :=
  match files.read request.input with
  | .error error => ⟨.error (.reading request.input (.file error)), [], [], files⟩
  | .ok data =>
      let conversion := request.convert library data
      match conversion.result with
      | .error failure => ⟨.error failure, [], conversion.log, files⟩
      | .ok delivery => files.accept terminal conversion.log delivery

end Request

end Bitfont
