import EnumInline.CommandLine.Command

/-!
The help of the program. Names stand in a column whose width fits the longest, and what they mean beside
them.
-/

namespace EnumInline.CommandLine

structure HelpLine where
  subject : String
  meaning : String

private def listing (title : String) (lines : List HelpLine) : String :=
  let width := lines.foldl (fun width line => max width line.subject.length) 0
  let written := lines.map fun line =>
    "  " ++ line.subject ++ String.ofList (List.replicate (width - line.subject.length) ' ') ++ "  " ++
      line.meaning ++ "\n"
  "\n" ++ title ++ ":\n" ++ String.join written

private def Flag.helpLine : Flag → HelpLine
  | .pattern => ⟨"    --pattern <GLOB>", "Glob for source files, relative to the source directory"⟩
  | .tsconfig => ⟨"    --tsconfig <FILE>", "tsconfig providing \x60paths\x60 aliases"⟩
  | .noInlineLocal =>
      ⟨"    --no-inline-local", "Do not substitute references to enums declared in the same file"⟩
  | .json => ⟨"    --json", "Output the table as JSON"⟩
  | .out => ⟨"    --out <FILE>", "Write the output to FILE (relative path) instead of stdout"⟩
  | .root => ⟨"    --root <ROOT>", "Project root [default: .]"⟩
  | .write => ⟨"    --write", "Rewrite files in place instead of printing them"⟩

def Topic.about : Topic → String
  | .program => "Inline TypeScript const enum members across modules"
  | .table => "Analyze a project and print its replacement table"
  | .transform => "Rewrite const enum references in files"
  | .digest => "Print the SHA-256 digest of the replacement table"
  | .help => "Print this message or the help of the given subcommand(s)"

private def Topic.usage : Topic → String
  | .program => "constinline <COMMAND>"
  | .table => "constinline table [OPTIONS] [ROOT]"
  | .transform => "constinline transform [OPTIONS] <FILES>..."
  | .digest => "constinline digest [OPTIONS] [ROOT]"
  | .help => "constinline help [COMMAND]..."

private def Topic.arguments : Topic → List HelpLine
  | .program => []
  | .table =>
      [⟨"[ROOT]",
        "Project root (constinline.toml and tsconfig.json are read from here) [default: .]"⟩]
  | .transform => [⟨"<FILES>...", "Files to transform"⟩]
  | .digest => [⟨"[ROOT]", "Project root [default: .]"⟩]
  | .help => [⟨"[COMMAND]...", "Print help for the subcommand(s)"⟩]

private def helpFlag : HelpLine := ⟨"-h, --help", "Print help"⟩

private def versionFlag : HelpLine := ⟨"-V, --version", "Print version"⟩

private def Topic.listings : Topic → String
  | .program =>
      listing "Commands"
          [⟨"table", Topic.table.about⟩, ⟨"transform", Topic.transform.about⟩,
            ⟨"digest", Topic.digest.about⟩, ⟨"help", Topic.help.about⟩] ++
        listing "Options" [helpFlag, versionFlag]
  | .help => listing "Arguments" Topic.help.arguments
  | topic =>
      listing "Arguments" topic.arguments ++
        listing "Options" (topic.flags.map Flag.helpLine ++ [helpFlag])

def Topic.helpText (topic : Topic) : String :=
  topic.about ++ "\n\nUsage: " ++ topic.usage ++ "\n" ++ topic.listings

def version : String := "constinline-cli 0.1.0\n"

end EnumInline.CommandLine
