import Stopwatch.Fault

/-!
# Completion scripts

Scripts that teach a shell the flags of the program and their values. One table of hints serves all
shells; each shell has its own way of writing it down.
-/

namespace Stopwatch

namespace Completion

/-- What may follow a flag. -/
inductive Values where
  /-- Nothing. -/
  | nothing
  /-- Anything, under a label. -/
  | free (label : Text)
  /-- One of some words, under a label. -/
  | words (label : Text) (ws : List Text)
  /-- A file, under a label. -/
  | file (label : Text)
  /-- A workload, under a label. -/
  | workload (label : Text)

/-- What a shell is told about a flag. -/
structure Hint where
  long : Text
  short : Option Text := none
  help : Text
  values : Values := .nothing
  /-- The group of flags it belongs to. -/
  group : Text

/-- All flags, group by group. -/
def hints : List Hint :=
  [ ⟨"help", some "h", "Show help message", .nothing, "Help and version"⟩,
    ⟨"version", some "V", "Show version information", .nothing, "Help and version"⟩,
    ⟨"workload", some "w", "Workload to time", .workload "workload", "Benchmark"⟩,
    ⟨"runs", some "r", "Number of timed runs", .words "number" ["10", "30", "100"], "Benchmark"⟩,
    ⟨"iterations", some "k", "Inner iterations per run", .free "number", "Benchmark"⟩,
    ⟨"start", none, "Initial counter of the prime scan", .free "number", "Benchmark"⟩,
    ⟨"timeout", none, "Maximum session duration",
      .words "duration" ["1m", "5m", "10m", "30m", "1h"], "Benchmark"⟩,
    ⟨"gc", none, "Garbage collector handling",
      .words "mode" ["default", "collect", "disabled"], "Benchmark"⟩,
    ⟨"pin-cpu", none, "Pin the benchmark thread to a CPU", .free "cpu", "Benchmark"⟩,
    ⟨"verify", none, "Cross-check the primality predicate first", .nothing, "Benchmark"⟩,
    ⟨"verify-limit", none, "Upper bound of the self-check", .free "number", "Benchmark"⟩,
    ⟨"verify-workers", none, "Goroutines used by the self-check", .free "number", "Benchmark"⟩,
    ⟨"unit", none, "Reporting unit", .words "unit" ["ms", "s", "us"], "Output options"⟩,
    ⟨"precision", none, "Decimals in summary lines", .free "number", "Output options"⟩,
    ⟨"spread", none, "Always report stdev and CV", .nothing, "Output options"⟩,
    ⟨"print-primes", none, "Print primes found by the prime scan", .nothing, "Output options"⟩,
    ⟨"quiet", some "q", "Quiet mode for scripts", .nothing, "Output options"⟩,
    ⟨"verbose", some "v", "Show per-run samples", .nothing, "Output options"⟩,
    ⟨"no-color", none, "Disable colored output", .nothing, "Output options"⟩,
    ⟨"tui", none, "Interactive dashboard", .nothing, "Output options"⟩,
    ⟨"theme", none, "Color theme", .words "theme" ["dark", "light"], "Output options"⟩,
    ⟨"output", some "o", "JSON report file", .file "file", "Output options"⟩,
    ⟨"metrics-addr", none, "Serve Prometheus metrics on this address",
      .free "address", "Observability"⟩,
    ⟨"metrics-file", none, "Prometheus textfile export", .file "file", "Observability"⟩,
    ⟨"log-level", none, "Log level", .words "level" ["debug", "info", "warn", "error"],
      "Observability"⟩,
    ⟨"completion", none, "Generate completion script",
      .words "shell" ["bash", "zsh", "fish", "powershell"], "Completion"⟩ ]

/-- The spellings of a flag on the command line. -/
def Hint.spellings (h : Hint) : List Text :=
  ("--" ++ h.long) :: (h.short.map fun s => ("-" : Text) ++ s).toList

/-- All spellings of all flags. -/
def spellings : List Text := hints.flatMap Hint.spellings

/-- Lines, each with its line break. -/
def unlines (ls : List Text) : Text := Text.concat (ls.map fun l => l ++ "\n")

/-- Blocks of lines, one after the other. -/
def blocks (bs : List (List Text)) : Text := unlines bs.flatten

/-! ## Bash -/

/-- The words to choose from, for the word that is being typed. -/
def bashWords (words : Text) : Text :=
  "COMPREPLY=( $(compgen -W \"" ++ words ++ "\" -- \"$\x7bcur\x7d\") )"

/-- A branch for flags that a value follows. -/
def bashCase (patterns : List Text) (body : Text) : List Text :=
  ["        " ++ Text.join "|" patterns ++ ")", "            " ++ body,
    "            return 0", "            ;;"]

/-- The branch of a flag, if its values are listed. -/
def bashHint (h : Hint) : List Text :=
  match h.values with
  | .workload _ => bashCase h.spellings (bashWords "$\x7bworkloads\x7d")
  | .words _ ws => bashCase h.spellings (bashWords (Text.join " " ws))
  | _ => []

/-- True of flags that a file follows. -/
def Hint.isFile (h : Hint) : Bool :=
  match h.values with
  | .file _ => true
  | _ => false

/-- The script for bash. -/
def bash (workloads : List Text) : Text :=
  blocks [
    [ "# Bash completion script for microbench",
      "# Add this to your ~/.bashrc or ~/.bash_completion",
      "",
      "_microbench_completions() \x7b",
      "    local cur prev opts workloads",
      "    COMPREPLY=()",
      "    cur=\"$\x7bCOMP_WORDS[COMP_CWORD]\x7d\"",
      "    prev=\"$\x7bCOMP_WORDS[COMP_CWORD-1]\x7d\"",
      "",
      "    opts=\"" ++ Text.join " " spellings ++ "\"",
      "    workloads=\"" ++ Text.join " " workloads ++ " all\"",
      "",
      "    case \"$\x7bprev\x7d\" in" ],
    hints.flatMap bashHint,
    bashCase ((hints.filter Hint.isFile).flatMap Hint.spellings)
    "COMPREPLY=( $(compgen -f -- \"$\x7bcur\x7d\") )",
    [ "    esac",
      "",
      "    if [[ \"$\x7bcur\x7d\" == -* ]]; then",
      "        " ++ bashWords "$\x7bopts\x7d",
      "        return 0",
      "    fi",
      "\x7d",
      "",
      "complete -F _microbench_completions microbench" ] ]

/-! ## Zsh -/

/-- What follows a flag. -/
def zshValues : Values → Text
  | .nothing => ∅
  | .free label => ":" ++ label ++ ":"
  | .words label ws => ":" ++ label ++ ":(" ++ Text.join " " ws ++ ")"
  | .file label => ":" ++ label ++ ":_files"
  | .workload label => ":" ++ label ++ ":($workloads)"

/-- The entry of a flag. -/
def zshHint (h : Hint) : Text :=
  let rest := "[" ++ h.help ++ "]" ++ zshValues h.values ++ "'"
  match h.short with
  | some s =>
    "        '(-" ++ s ++ " --" ++ h.long ++ ")'\x7b-" ++ s ++ ",--" ++ h.long ++ "\x7d'" ++ rest
  | none => "        '--" ++ h.long ++ rest

/-- The script for zsh. -/
def zsh (workloads : List Text) : Text :=
  unlines
    [ "#compdef microbench",
      "",
      "# Zsh completion script for microbench",
      "# Add this to your ~/.zshrc or place in $fpath",
      "",
      "_microbench() \x7b",
      "    local -a workloads",
      "    workloads=(" ++ Text.join " " workloads ++ " all)",
      "",
      "    _arguments -s \\",
      Text.join " \\\n" (hints.map zshHint),
      "\x7d",
      "",
      "_microbench \"$@\"" ]

/-! ## Fish -/

/-- What follows a flag. -/
def fishValues (workloads : List Text) : Values → List Text
  | .nothing => []
  | .free _ => ["-x"]
  | .words _ ws => ["-xa '" ++ Text.join " " ws ++ "'"]
  | .file _ => ["-rF"]
  | .workload _ => ["-xa '" ++ Text.join " " workloads ++ " all'"]

/-- The command of a flag. -/
def fishHint (workloads : List Text) (h : Hint) : Text :=
  let command : List Text := ["complete -c microbench"]
  let short : List Text := (h.short.map fun s => ("-s " : Text) ++ s).toList
  let long : List Text := ["-l " ++ h.long, "-d '" ++ h.help ++ "'"]
  Text.join " " (command ++ short ++ long ++ fishValues workloads h.values)

/-- The commands of flags, with a comment before each group. -/
def fishHints (workloads : List Text) (group : Text) : List Hint → List Text
  | [] => []
  | h :: hs =>
    let comment : List Text := if h.group == group then [] else ["", "# " ++ h.group]
    comment ++ fishHint workloads h :: fishHints workloads h.group hs

/-- The script for fish. -/
def fish (workloads : List Text) : Text :=
  blocks [
    [ "# Fish completion script for microbench",
      "# Add this to ~/.config/fish/completions/microbench.fish",
      "",
      "# Disable file completion by default",
      "complete -c microbench -f" ],
    fishHints workloads ∅ hints ]

/-! ## PowerShell -/

/-- Words in single quotes. -/
def quotedWords (ws : List Text) : Text := Text.join ", " (ws.map fun w => "'" ++ w ++ "'")

/-- The entries of a flag in the list of options. -/
def powershellOptions (h : Hint) : List Text :=
  h.spellings.map fun p => "        @\x7bName = '" ++ p ++
    "'; Description = '" ++ h.help ++ "' \x7d"

/-- Where the values of a flag come from, if they are listed. -/
def powershellSource? (h : Hint) : Option Text :=
  match h.values with
  | .workload _ => some "$microbenchWorkloads"
  | .words _ ws => some ("@(" ++ quotedWords ws ++ ")")
  | _ => none

/-- The branch of a flag whose values are listed. -/
def powershellCase (h : Hint) : List Text :=
  match powershellSource? h with
  | none => []
  | some source =>
    [ "        '--" ++ h.long ++ "' \x7b",
      "            " ++ source ++
      " | Where-Object \x7b $_ -like \"$wordToComplete*\" \x7d | ForEach-Object \x7b",
      "                [System.Management.Automation.CompletionResult]::new($_, $_, 'ParameterValue', $_)",
      "            \x7d",
      "            return",
      "        \x7d" ]

/-- The script for PowerShell. -/
def powershell (workloads : List Text) : Text :=
  blocks [
    [ "# PowerShell completion script for microbench",
      "# Add this to your $PROFILE",
      "",
      "$microbenchWorkloads = @(" ++ quotedWords (workloads ++ [("all" : Text)]) ++ ")",
      "",
      "Register-ArgumentCompleter -CommandName 'microbench' -Native -ScriptBlock \x7b",
      "    param($wordToComplete, $commandAst, $cursorPosition)",
      "",
      "    $options = @(" ],
    hints.flatMap powershellOptions,
    [ "    )",
      "",
      "    $elements = $commandAst.CommandElements",
      "    $prevElement = if ($elements.Count -gt 2) \x7b $elements[-2].ToString() \x7d else \x7b '' \x7d",
      "",
      "    switch ($prevElement) \x7b" ],
    hints.flatMap powershellCase,
    [ "    \x7d",
      "",
      "    $options | Where-Object \x7b $_.Name -like \"$wordToComplete*\" \x7d | ForEach-Object \x7b",
      "        [System.Management.Automation.CompletionResult]::new($_.Name, $_.Name, 'ParameterName', $_.Description)",
      "    \x7d",
      "\x7d" ] ]

/-! ## Choice of the shell -/

/-- The shells that there are scripts for. -/
inductive Shell where
  | bash
  | zsh
  | fish
  | powershell
deriving DecidableEq

/-- The shell of a name. -/
def shellNamed (name : Text) : Except Fault Shell :=
  if name == "bash" then .ok .bash
  else if name == "zsh" then .ok .zsh
  else if name == "fish" then .ok .fish
  else if name == "powershell" || name == "ps" then .ok .powershell
  else .error (.plain ("unsupported shell: " ++ name ++
    " (accepted values: bash, zsh, fish, powershell)"))

/-- The script for a shell. -/
def Shell.script (workloads : List Text) : Shell → Text
  | .bash => Completion.bash workloads
  | .zsh => Completion.zsh workloads
  | .fish => Completion.fish workloads
  | .powershell => Completion.powershell workloads

/-- The fault if the script cannot be written out. -/
def Shell.writeFault (cause : Fault) : Shell → Fault
  | .bash => cause.inContext "completion bash generation failed"
  | .zsh => cause.inContext "completion zsh generation failed"
  | .fish => cause.inContext "completion fish generation failed"
  | .powershell => cause

/-- Writes the script for a shell to where writing may fail. -/
def write (shell : Text) (workloads : List Text) (broken : Option Fault) : Except Fault Text := do
  let s ← shellNamed shell
  match broken with
  | some f => .error (s.writeFault f)
  | none => .ok (s.script workloads)

end Completion

end Stopwatch
