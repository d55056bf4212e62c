import Bitfont.CommandLine.Arguments
import Bitfont.CommandLine.Request

namespace Bitfont.CommandLine

structure HeaderDraft where
  source : Option Octets := none
  header : Option Octets := none
deriving DecidableEq, Repr

namespace HeaderDraft

def positionals : List (Positional HeaderDraft) := [
  { label := "<source>"
    store := ValueReader.path.into fun source draft => { draft with source := some source } },
  { label := "<header>"
    store := ValueReader.path.into fun header draft => { draft with header := some header } }]

def command : Command HeaderDraft := ⟨commonOptions, positionals⟩

def finish (draft : HeaderDraft) : Except Error HeaderRequest :=
  match draft.source, draft.header with
  | some source, some header => .ok ⟨source, header⟩
  | some _, none => .error (.missingArguments ["<header>"])
  | none, some _ => .error (.missingArguments ["<source>"])
  | none, none => .error (.missingArguments ["<source>", "<header>"])

end HeaderDraft
end Bitfont.CommandLine
