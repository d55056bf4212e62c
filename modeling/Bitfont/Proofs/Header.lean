import Bitfont.Proofs.Header.Guard
import Bitfont.Proofs.Session

namespace Bitfont

namespace Header

open Declaration (IsWhole)

def directive (word guard : Text) : Text := '#' :: word ++ guard

def lines (guard : Text) (declarations : List Text) : List Text :=
  directive "ifndef ".toList guard :: directive "define ".toList guard :: [] ::
    (declarations ++ [[], directive "endif // ".toList guard])

theorem text_eq_lines (guard : Text) (declarations : List Text) :
    text guard declarations = (lines guard declarations).flatMap (· ++ ['\n']) := by
  -- The words are variables here: as literals they would be unfolded to their bytes.
  have layout (opening definition closing : Text) :
      '#' :: opening ++ guard ++ '\n' :: '#' :: definition ++ guard ++ ['\n', '\n'] ++
          declarations.flatMap (· ++ ['\n']) ++ '\n' :: '#' :: closing ++ guard ++ ['\n'] =
        List.flatMap (· ++ ['\n']) (directive opening guard :: directive definition guard :: [] ::
          (declarations ++ [[], directive closing guard])) := by
    simp only [directive, List.flatMap_cons, List.flatMap_append, List.flatMap_nil, List.append_assoc,
      List.cons_append, List.nil_append]
  exact layout "ifndef ".toList "define ".toList "endif // ".toList

section Guarded

variable {guard : Text} (isGuard : IsGuard guard)

include isGuard

theorem directive_last {word : Text} :
    ∀ c ∈ (directive word guard).getLast?, continuesMacro c := by
  intro c last
  rw [directive, List.getLast?_append_of_ne_nil _ isGuard.ne_nil] at last
  exact isGuard.continues c (List.mem_of_getLast? last)

theorem directive_is_line {word : Text} (noLineFeed : '\n' ∉ word) :
    Text.IsLine (directive word guard) where
  noLineFeed := by
    intro member
    rcases List.mem_append.mp member with inWord | inGuard
    · exact List.not_mem_cons_of_ne_of_not_mem (by decide) noLineFeed inWord
    · exact absurd (isGuard.continues _ inGuard) (by decide)
  noReturn := by
    intro last
    exact absurd (directive_last isGuard _ last) (by decide)

theorem directive_undeclared (word : Text) :
    Declaration.atStart? (Text.trim (directive word guard)) = none := by
  have whole : Text.trim (directive word guard) = directive word guard := by
    apply Text.trim_eq_self
    · rintro c ⟨⟩
      rfl
    · intro c last
      exact continues_macro_not_blank (directive_last isGuard c last)
  rw [whole]
  rfl

variable {declarations : List Text} (whole : ∀ declaration ∈ declarations, IsWhole declaration)

include whole

theorem lines_is_line : ∀ line ∈ lines guard declarations, Text.IsLine line := by
  have empty : Text.IsLine [] := ⟨List.not_mem_nil, nofun⟩
  simp only [lines, List.forall_mem_cons, List.forall_mem_append]
  exact ⟨directive_is_line isGuard (by decide), directive_is_line isGuard (by decide), empty,
    fun line member => (whole line member).line, empty, directive_is_line isGuard (by decide),
    List.forall_mem_nil _⟩

theorem of_source_text : Declaration.ofSource (text guard declarations) = declarations := by
  have own :
      declarations.filterMap (fun line => Declaration.atStart? (Text.trim line)) = declarations :=
    (List.filterMap_congr fun line member => (whole line member).found).trans List.filterMap_some
  have empty : Declaration.atStart? (Text.trim []) = none := rfl
  rw [text_eq_lines, Declaration.of_source_flat_map (lines_is_line isGuard whole)]
  simp only [lines, List.filterMap_cons, List.filterMap_append, List.filterMap_nil, List.append_nil,
    directive_undeclared isGuard, empty, own]

end Guarded

end Header

theorem Request.run_header (library : FontLibrary) (terminal : Outlet) {files : FileTree} {input : Octets}
    {source : Text} (path : Octets) (read : files.read input = .ok (Utf8.encode source).toArray) :
    let report := (Request.header ⟨input, path⟩).run library terminal files
    let written := files.write path
      (Utf8.encode (Header.text (Header.guardFor path) (Declaration.ofSource source)))
    report.result = written.1.mapError (.writing path) ∧
      report.standardOutput = [] ∧ report.files = written.2 := by
  have converted : ∃ entries log,
      (Request.header ⟨input, path⟩).convert library (Utf8.encode source).toArray =
        ⟨.ok ⟨Header.text (Header.guardFor path) (Declaration.ofSource source), .file path, entries⟩, log⟩ := by
    rw [Request.convert, HeaderRequest.convert, Utf8.decode?_encode]
    exact ⟨_, _, rfl⟩
  obtain ⟨entries, log, converted⟩ := converted
  rw [Request.run, Request.input, read]
  dsimp only
  rw [converted]
  exact FileTree.accept_file terminal files log entries _ path

namespace Header

-- A header that is read as a source gives itself, wherever it is read from and written to. Made again in
-- its own place, it leaves the files as they were.
theorem text_is_fixed_point (source : Text) (path : Octets) :
    let header := text (guardFor path) (Declaration.ofSource source)
    let octets := Utf8.encode header
    Declaration.ofSource header = Declaration.ofSource source ∧
      text (guardFor path) (Declaration.ofSource header) = header ∧
      (∀ (library : FontLibrary) (terminal : Outlet) (input : Octets) (files : FileTree),
        files.read input = .ok octets.toArray →
        let report := (Request.header ⟨input, path⟩).run library terminal files
        (∃ error, files.destination path = .error error ∧
          report.result = .error (.writing path error) ∧ report.files = files) ∨
        ∃ location, files.destination path = .ok location ∧
          let taken := files.outlet location octets
          report.result = taken.result.mapError (.writing path) ∧
          (Output.file path).Receives (taken.kept octets) files report.standardOutput report.files) ∧
      ∀ (library : FontLibrary) (terminal : Outlet) (files : FileTree),
        files.Writable → files.read path = .ok octets.toArray →
        let report := (Request.header ⟨path, path⟩).run library terminal files
        report.result = .ok () ∧ ∀ location, report.files.lookup location = files.lookup location := by
  intro header octets
  have same : Declaration.ofSource header = Declaration.ofSource source :=
    of_source_text (guard_of_name_is_guard _) fun _ => Declaration.mem_of_source
  have again : text (guardFor path) (Declaration.ofSource header) = header := congrArg (text _) same
  refine ⟨same, again, ?_, ?_⟩
  · intro library terminal input files read report
    obtain ⟨result, silent, stored⟩ := Request.run_header library terminal path read
    rw [again] at result stored
    cases opened : files.destination path with
    | error error =>
        rw [FileTree.write_unopened opened] at result stored
        exact .inl ⟨error, rfl, result, stored⟩
    | ok location =>
        obtain ⟨outcome, stores⟩ := FileTree.write_opened opened octets
        rw [outcome] at result
        rw [← stored] at stores
        exact .inr ⟨location, rfl, result, silent, location, stores⟩
  · intro library terminal files writable read report
    obtain ⟨result, -, stored⟩ := Request.run_header library terminal path read
    obtain ⟨succeeded, unchanged⟩ := FileTree.rewrite_same writable read
    rw [again] at result stored
    rw [← stored] at unchanged
    rw [succeeded] at result
    exact ⟨result, unchanged⟩

-- The declaration holds a carriage return and a blank that is not in ASCII, and more follows it.
theorem spaced_declaration_kept :
    let source := "\tvoid echo ( const char *message,\r int n )\u2003; // once\r\nint x;\r\n".toList
    let declaration := "void echo ( const char *message,\r int n )\u2003;".toList
    let header := text "ECHO_H".toList [declaration]
    let path := Utf8.encode "echo.h".toList
    let files : FileTree := { entries := [([path], .file (Utf8.encode header).toArray)] }
    Declaration.ofSource source = [declaration] ∧ Declaration.ofSource header = [declaration] ∧
      files.read path = .ok (Utf8.encode header).toArray ∧
      ((Request.header ⟨path, path⟩).run Sfnt.library (fun _ => .whole) files).result = .ok () := by
  intro source declaration header path files
  have found : Declaration.ofSource source = [declaration] := by decide +kernel
  have guard : guardFor path = "ECHO_H".toList := by decide +kernel
  have read : files.read path = .ok (Utf8.encode header).toArray := rfl
  have fixed := text_is_fixed_point source path
  rw [found, guard] at fixed
  have writable : files.Writable := ⟨fun _ => rfl, fun _ _ => rfl⟩
  exact ⟨found, fixed.1, read, (fixed.2.2.2 Sfnt.library _ files writable read).1⟩

end Header

end Bitfont
