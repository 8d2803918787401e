import SharedScene.Program.Arguments

/-!
# Help

What the program says about itself when it is asked.
-/

namespace SharedScene.Program

def versionText : String := "scenesync 0.1.0\n"

def lines (ls : List String) : String := String.join (ls.map (· ++ "\n"))

/-- What the program says about a topic. -/
def helpText : Topic → String
  | .program => lines
    [ "Scene graph consistency and command-execution engine",
      "",
      "Usage: scenesync [OPTIONS] <COMMAND>",
      "",
      "Commands:",
      "  replay  Replay JSON-lines requests against a fresh engine",
      "  config  Print the effective configuration as TOML",
      "  help    Print this message or the help of the given subcommand(s)",
      "",
      "Options:",
      "      --config <FILE>  Project config file (replaces .scenesync/config.toml)",
      "      --log <FILTER>   Log filter, e.g. `scenesync_core=debug` (overrides RUST_LOG)",
      "  -h, --help           Print help",
      "  -V, --version        Print version" ]
  | .replay => lines
    [ "Replay JSON-lines requests against a fresh engine",
      "",
      "Usage: scenesync replay [OPTIONS] <FILE>",
      "",
      "Arguments:",
      "  <FILE>  Requests, one JSON object per line (`-` reads stdin)",
      "",
      "Options:",
      "      --config <FILE>  Project config file (replaces .scenesync/config.toml)",
      "      --seed <FILE>    JSON array of instance records loaded with a full resync first",
      "      --log <FILTER>   Log filter, e.g. `scenesync_core=debug` (overrides RUST_LOG)",
      "  -h, --help           Print help",
      "",
      "EXAMPLES:",
      "  scenesync replay requests.jsonl",
      "  scenesync replay requests.jsonl --seed tree.json",
      "  echo '\x7b\"route\":\"snapshot\"\x7d' | scenesync replay -" ]
  | .config => lines
    [ "Print the effective configuration as TOML",
      "",
      "Usage: scenesync config [OPTIONS]",
      "",
      "Options:",
      "      --config <FILE>  Project config file (replaces .scenesync/config.toml)",
      "      --log <FILTER>   Log filter, e.g. `scenesync_core=debug` (overrides RUST_LOG)",
      "  -h, --help           Print help" ]
  | .help => lines
    [ "Print this message or the help of the given subcommand(s)",
      "",
      "Usage: scenesync help [COMMAND]...",
      "",
      "Arguments:",
      "  [COMMAND]...  Print help for the subcommand(s)" ]

end SharedScene.Program
