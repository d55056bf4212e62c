import Bitfont.Session
import Bitfont.Sfnt.Library
import Bitfont.Proofs.Blob
import Bitfont.Proofs.FileTree

namespace Bitfont

section

variable (library : FontLibrary)

inductive Request.Yields : Request → Array UInt8 → Text → Prop where
  | rasterize {request : RasterizeRequest} {data : Array UInt8} {sized : SizedFont library} {text : Text}
      (loaded : SizedFont.load library data request.size = .ok sized)
      (converted : (Typeface.convert sized.render request.format (Path.origin request.font) ()).result =
        .ok text) :
      Yields (.rasterize request) data text
  | blob {request : BlobRequest} {data : Array UInt8} {converted : Blob.Converted}
      (success : Blob.convert request.format (Path.origin request.input) data = .ok converted) :
      Yields (.blob request) data converted.text
  | header {request : HeaderRequest} {data : Array UInt8} {source : Text}
      (decoded : Utf8.decode? data.toList = some source) :
      Yields (.header request) data
        (Header.text (Header.guardFor request.header) (Declaration.ofSource source))

end

namespace Output

def failure : Output → FileError → Failure
  | .standardOutput => .printing
  | .file path => .writing path

def Opens (output : Output) (files : FileTree) : Prop :=
  ∀ path, output = .file path → ∃ location, files.destination path = .ok location

def Takes (output : Output) (terminal : Outlet) (files : FileTree) (octets : Octets) (taken : Taken) : Prop :=
  match output with
  | .standardOutput => taken = terminal octets
  | .file path => ∃ location, files.Leads path location ∧ taken = files.outlet location octets

-- The octets are in this one place: nothing else is printed, and no other file differs.
def Receives (output : Output) (octets : Octets) (files : FileTree) (standardOutput : Octets)
    (after : FileTree) : Prop :=
  match output with
  | .standardOutput => standardOutput = octets ∧ after = files
  | .file path => standardOutput = [] ∧ ∃ location, files.Stores path location octets after

end Output

def Request.output : Request → Output
  | .rasterize request => request.output
  | .blob request => request.output
  | .header request => .file request.header

def Request.Produces (library : FontLibrary) (request : Request) (files : FileTree) (text : Text) : Prop :=
  ∃ data, files.read request.input = .ok data ∧ request.Yields library data text ∧
    request.output.Opens files

variable {library : FontLibrary} {terminal : Outlet} {request : Request} {data : Array UInt8}
  {delivery : Delivery} {text : Text} {files : FileTree}

theorem Taken.result_eq_ok_iff {taken : Taken} : taken.result = .ok () ↔ taken = .whole := by
  cases taken with
  | whole => exact ⟨fun _ => rfl, fun _ => rfl⟩
  | start count error => exact ⟨nofun, nofun⟩

theorem Request.yields_of_convert (converted : (request.convert library data).result = .ok delivery) :
    request.Yields library data delivery.text ∧ delivery.output = request.output := by
  cases request with
  | rasterize request =>
      change (RasterizeRequest.convert library request data).result = _ at converted
      unfold RasterizeRequest.convert at converted
      cases loaded : SizedFont.load library data request.size with
      | error error =>
          rw [loaded] at converted
          contradiction
      | ok sized =>
          rw [loaded] at converted
          obtain ⟨text, success, rfl⟩ := map_eq_ok_iff.mp converted
          exact ⟨.rasterize loaded (map_error_eq_ok_iff.mp success), rfl⟩
  | blob request =>
      obtain ⟨blob, success, rfl⟩ := map_eq_ok_iff.mp converted
      exact ⟨.blob (map_error_eq_ok_iff.mp success), rfl⟩
  | header request =>
      change (HeaderRequest.convert request data).result = _ at converted
      unfold HeaderRequest.convert at converted
      cases decoded : Utf8.decode? data.toList with
      | none =>
          rw [decoded] at converted
          contradiction
      | some source =>
          rw [decoded] at converted
          obtain rfl := Except.ok.inj converted
          exact ⟨.header decoded, rfl⟩

theorem Request.convert_of_yields (yields : request.Yields library data text) :
    ∃ delivery, (request.convert library data).result = .ok delivery ∧ delivery.text = text := by
  cases yields with
  | @rasterize request _ sized _ loaded converted =>
      have success : ((Typeface.convert sized.render request.format (Path.origin request.font)
          ()).result.mapError Failure.typeface).map request.output.deliver =
          .ok (request.output.deliver text) := by
        rw [converted]
        rfl
      refine ⟨request.output.deliver text, ?_, rfl⟩
      change (RasterizeRequest.convert library request data).result = _
      rw [RasterizeRequest.convert, loaded]
      exact success
  | @blob request _ converted success =>
      refine ⟨request.output.deliver converted.text, ?_, rfl⟩
      change (BlobRequest.convert request data).result = _
      rw [BlobRequest.convert, success]
      rfl
  | @header request _ source decoded =>
      have success : ∃ delivery, (HeaderRequest.convert request data).result = .ok delivery ∧
          delivery.text =
            Header.text (Header.guardFor request.header) (Declaration.ofSource source) := by
        rw [HeaderRequest.convert, decoded]
        exact ⟨_, rfl, rfl⟩
      exact success

namespace FileTree

variable (terminal : Outlet) (files : FileTree) (log entries : List Log.Entry) (text : Text)

theorem accept_standard_output :
    let report := files.accept terminal log ⟨text, .standardOutput, entries⟩
    let taken := terminal (Utf8.encode text)
    report.result = taken.result.mapError .printing ∧
      report.standardOutput = taken.kept (Utf8.encode text) ∧ report.files = files := by
  dsimp only [accept]
  cases (terminal (Utf8.encode text)).result with
  | error error => exact ⟨rfl, rfl, rfl⟩
  | ok => exact ⟨rfl, rfl, rfl⟩

theorem accept_file (path : Octets) :
    let report := files.accept terminal log ⟨text, .file path, entries⟩
    let written := files.write path (Utf8.encode text)
    report.result = written.1.mapError (.writing path) ∧
      report.standardOutput = [] ∧ report.files = written.2 := by
  dsimp only [accept]
  obtain ⟨result, after⟩ := files.write path (Utf8.encode text)
  cases result with
  | error error => exact ⟨rfl, rfl, rfl⟩
  | ok => exact ⟨rfl, rfl, rfl⟩

theorem accept_cases (delivery : Delivery) :
    let octets := Utf8.encode delivery.text
    let report := files.accept terminal log delivery
    (¬ delivery.output.Opens files ∧ (∃ error, report.result = .error (delivery.output.failure error)) ∧
      report.standardOutput = [] ∧ report.files = files) ∨
    ∃ taken, delivery.output.Opens files ∧ delivery.output.Takes terminal files octets taken ∧
      report.result = taken.result.mapError delivery.output.failure ∧
      delivery.output.Receives (taken.kept octets) files report.standardOutput report.files := by
  obtain ⟨text, output, entries⟩ := delivery
  cases output with
  | standardOutput =>
      obtain ⟨result, printed, unchanged⟩ := accept_standard_output terminal files log entries text
      exact .inr ⟨terminal (Utf8.encode text), nofun, rfl, result, printed, unchanged⟩
  | file path =>
      obtain ⟨result, silent, written⟩ := accept_file terminal files log entries text path
      cases opened : files.destination path with
      | error error =>
          rw [write_unopened opened] at result written
          refine .inl ⟨fun opens => ?_, ⟨error, result⟩, silent, written⟩
          obtain ⟨location, found⟩ := opens path rfl
          exact nomatch opened.symm.trans found
      | ok location =>
          obtain ⟨outcome, stores⟩ := write_opened opened (Utf8.encode text)
          rw [outcome] at result
          rw [← written] at stores
          refine .inr ⟨files.outlet location (Utf8.encode text), ?_, ⟨location, stores.leads, rfl⟩,
            result, silent, location, stores⟩
          rintro other ⟨⟩
          exact ⟨location, opened⟩

end FileTree

inductive Request.Ends (library : FontLibrary) (terminal : Outlet) (request : Request) (files : FileTree) :
    Report → Prop where
  | unread {error : FileError} (unread : files.read request.input = .error error) :
      Ends library terminal request files ⟨.error (.reading request.input (.file error)), [], [], files⟩
  | unconverted {data : Array UInt8} {failure : Failure}
      (read : files.read request.input = .ok data)
      (failed : (request.convert library data).result = .error failure) :
      Ends library terminal request files
        ⟨.error failure, [], (request.convert library data).log, files⟩
  | offered {data : Array UInt8} {delivery : Delivery}
      (read : files.read request.input = .ok data)
      (converted : (request.convert library data).result = .ok delivery) :
      Ends library terminal request files
        (files.accept terminal (request.convert library data).log delivery)

theorem Request.run_ends (library : FontLibrary) (terminal : Outlet) (request : Request) (files : FileTree) :
    request.Ends library terminal files (request.run library terminal files) := by
  unfold run
  cases read : files.read request.input with
  | error error => exact .unread read
  | ok data =>
      dsimp only
      cases converted : (request.convert library data).result with
      | error failure => exact .unconverted read converted
      | ok delivery => exact .offered read converted

theorem Request.run_cases (library : FontLibrary) (terminal : Outlet) (request : Request) (files : FileTree) :
    let report := request.run library terminal files
    ((∃ failure, report.result = .error failure) ∧ report.standardOutput = [] ∧ report.files = files ∧
      ∀ text, ¬ request.Produces library files text) ∨
    ∃ text taken, request.Produces library files text ∧
      request.output.Takes terminal files (Utf8.encode text) taken ∧
      (report.result = .ok () ↔ taken = .whole) ∧
      request.output.Receives (taken.kept (Utf8.encode text)) files report.standardOutput report.files := by
  have ends := request.run_ends library terminal files
  generalize request.run library terminal files = report at ends ⊢
  cases ends with
  | unread unread =>
      refine .inl ⟨⟨_, rfl⟩, rfl, rfl, ?_⟩
      rintro text ⟨data, read, -, -⟩
      exact nomatch unread.symm.trans read
  | unconverted read failed =>
      refine .inl ⟨⟨_, rfl⟩, rfl, rfl, ?_⟩
      rintro text ⟨other, also, yields, -⟩
      obtain rfl := Except.ok.inj (read.symm.trans also)
      obtain ⟨delivery, success, -⟩ := convert_of_yields yields
      exact nomatch failed.symm.trans success
  | @offered data delivery read converted =>
      obtain ⟨yields, place⟩ := yields_of_convert converted
      obtain ⟨unopened, ⟨error, failed⟩, silent, same⟩ | ⟨taken, opens, takes, result, receives⟩ :=
        FileTree.accept_cases terminal files (request.convert library data).log delivery
      · refine .inl ⟨⟨_, failed⟩, silent, same, ?_⟩
        rintro text ⟨-, -, -, opens⟩
        exact unopened (place ▸ opens)
      · rw [place] at opens takes receives
        refine .inr ⟨delivery.text, taken, ⟨data, read, yields, opens⟩, takes, ?_, receives⟩
        rw [result, map_error_eq_ok_iff, Taken.result_eq_ok_iff]

namespace Session

theorem run_parsed {environment : CommandLine.Environment} {arguments : List Octets}
    {invocation : CommandLine.Invocation}
    (parsed : CommandLine.read environment arguments = .ok invocation) (library : FontLibrary)
    (terminal : Outlet) (files : FileTree) :
    run library terminal environment arguments files =
      ofReport (threshold environment invocation.level)
        (invocation.request.run library terminal files) := by
  rw [run, parsed]

theorem of_report_finished (threshold : Log.Threshold) (report : Report) :
    ∃ exitCode standardError,
      ofReport threshold report = .finished exitCode report.standardOutput standardError report.files ∧
        (exitCode = 0 ↔ report.result = .ok ()) := by
  unfold ofReport
  cases report.result with
  | ok => exact ⟨_, _, rfl, by simp⟩
  | error failure =>
      have positive : failure.exitCode ≠ 0 := by
        unfold Failure.exitCode
        split <;> decide
      exact ⟨_, _, rfl, by simp [positive]⟩

structure Reliable (terminal : Outlet) (files : FileTree) : Prop where
  terminal : ∀ octets, terminal octets = .whole
  files : ∀ location octets, files.outlet location octets = .whole

theorem Reliable.whole {output : Output} {octets : Octets} {taken : Taken} (reliable : Reliable terminal files)
    (takes : output.Takes terminal files octets taken) : taken = .whole := by
  cases output with
  | standardOutput => exact takes.trans (reliable.terminal octets)
  | file path =>
      obtain ⟨location, -, rfl⟩ := takes
      exact reliable.files location octets

-- The exit code is zero exactly for a request that can be carried out and whose text is taken.
theorem run_changes_one_place (library : FontLibrary) (terminal : Outlet)
    (environment : CommandLine.Environment) (arguments : List Octets) (files : FileTree)
    (invocation : CommandLine.Invocation)
    (parsed : CommandLine.read environment arguments = .ok invocation) :
    ∃ exitCode standardOutput standardError after,
      run library terminal environment arguments files =
        .finished exitCode standardOutput standardError after ∧
      ((exitCode ≠ 0 ∧ standardOutput = [] ∧ after = files ∧
          ∀ text, ¬ invocation.request.Produces library files text) ∨
        ∃ text taken, invocation.request.Produces library files text ∧
          invocation.request.output.Takes terminal files (Utf8.encode text) taken ∧
          (exitCode = 0 ↔ taken = .whole) ∧
          invocation.request.output.Receives (taken.kept (Utf8.encode text)) files standardOutput after) ∧
      (Reliable terminal files →
        (exitCode ≠ 0 ∧ standardOutput = [] ∧ after = files ∧
          ∀ text, ¬ invocation.request.Produces library files text) ∨
        exitCode = 0 ∧ ∃ text, invocation.request.Produces library files text ∧
          invocation.request.output.Receives (Utf8.encode text) files standardOutput after) := by
  rw [run_parsed parsed]
  obtain ⟨exitCode, standardError, finished, zero⟩ := of_report_finished
    (threshold environment invocation.level) (invocation.request.run library terminal files)
  refine ⟨exitCode, _, standardError, _, finished, ?_⟩
  obtain ⟨⟨failure, failed⟩, silent, same, nothing⟩ | ⟨text, taken, produces, takes, success, receives⟩ :=
    invocation.request.run_cases library terminal files
  · have nonzero : exitCode ≠ 0 := by
      rw [Ne, zero, failed]
      exact nofun
    exact ⟨.inl ⟨nonzero, silent, same, nothing⟩, fun _ => .inl ⟨nonzero, silent, same, nothing⟩⟩
  · refine ⟨.inr ⟨text, taken, produces, takes, zero.trans success, receives⟩, fun reliable => .inr ?_⟩
    obtain rfl := reliable.whole takes
    exact ⟨(zero.trans success).mpr rfl, text, produces, receives⟩

-- The output path names the input from the root: the blob is read first, and its file then holds the
-- literal.
theorem blob_replaced_by_its_literal :
    let arguments := ["blob", "a", "/w/../w/a"].map fun word => Utf8.encode word.toList
    let directory := Utf8.encode ['w']
    let file := Utf8.encode ['a']
    let files : FileTree := { entries := [([directory, file], .file #[0x3C])], workingDirectory := [directory] }
    let terminal : Outlet := fun _ => .whole
    let format : Blob.Format := ⟨16, 4096, "builtin_font".toList, .flat, .c, .lower, some 12⟩
    let request : Request := .blob ⟨file, .file (Utf8.encode "/w/../w/a".toList), format⟩
    CommandLine.read [] arguments = .ok ⟨.info, request⟩ ∧ Reliable terminal files ∧
      ∃ text standardError after,
        run Sfnt.library terminal [] arguments files = .finished 0 [] standardError after ∧
        request.Produces Sfnt.library files text ∧
        after.lookup [directory, file] = some (.file (Utf8.encode text).toArray) := by
  intro arguments directory file files terminal format request
  have parsed : CommandLine.read [] arguments = .ok ⟨.info, request⟩ := by decide +kernel
  have reliable : Reliable terminal files := ⟨fun _ => rfl, fun _ _ => rfl⟩
  obtain ⟨converted, success⟩ : ∃ converted,
      Blob.convert format (Path.origin file) #[0x3C] = .ok converted := by
    cases outcome : Blob.convert format (Path.origin file) #[0x3C] with
    | error fault =>
        have empty := (Blob.convert_eq_error_iff format (Path.origin file) #[0x3C] fault).mp outcome
        exact absurd empty.1 (by decide)
    | ok converted => exact ⟨converted, rfl⟩
  have produces : request.Produces Sfnt.library files converted.text := by
    refine ⟨#[0x3C], rfl, .blob success, ?_⟩
    rintro path stored
    obtain rfl := Output.file.inj stored
    exact ⟨_, rfl⟩
  obtain ⟨exitCode, output, standardError, after, ran, -, outcome⟩ :=
    run_changes_one_place Sfnt.library terminal [] arguments files ⟨.info, request⟩ parsed
  refine ⟨parsed, reliable, ?_⟩
  obtain ⟨-, -, -, nothing⟩ | ⟨rfl, text, produced, rfl, location, stores⟩ := outcome reliable
  · exact absurd produces (nothing _)
  · obtain ⟨inside, name, target, rfl⟩ := stores.leads
    have here : files.target (Utf8.encode "/w/../w/a".toList) = .ok (.named [directory] file) := rfl
    obtain ⟨rfl, rfl⟩ : inside = [directory] ∧ name = file := by
      have same := Except.ok.inj (target.symm.trans here)
      simpa using same
    exact ⟨text, standardError, after, ran, produced, stores.stored⟩

end Session
end Bitfont
