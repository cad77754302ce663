import EdgeRouting.CommandLine.Basic

/-!
# Help texts

What is shown when help is asked for.
-/

namespace EdgeRouting.CommandLine

def Topic.lines : Topic → List String
  | .program => [
      "Compile weighted backend routing into edge logic and deploy it",
      "",
      "Usage: edge-gateway [OPTIONS] <COMMAND>",
      "",
      "Commands:",
      "  render    Print the synthesized logic units",
      "  simulate  Run random requests through the selection and print the split",
      "  deploy    Stage the routing set into a draft service version",
      "  help      Print this message or the help of the given subcommand(s)",
      "",
      "Options:",
      "  -c, --config <CONFIG>  Path to the configuration file [default: edge-gateway.toml]",
      "  -h, --help             Print help"]
  | .render => [
      "Print the synthesized logic units",
      "",
      "Usage: edge-gateway render",
      "",
      "Options:",
      "  -h, --help  Print help"]
  | .simulate => [
      "Run random requests through the selection and print the split",
      "",
      "Usage: edge-gateway simulate [OPTIONS]",
      "",
      "Options:",
      "  -n, --requests <REQUESTS>    [default: 10000]",
      "      --unhealthy <UNHEALTHY>  Deployer to treat as unhealthy (repeatable)",
      "      --lock <LOCK>            Pin every request to this deployer through the override header",
      "  -h, --help                   Print help"]
  | .deploy => [
      "Stage the routing set into a draft service version",
      "",
      "Usage: edge-gateway deploy [OPTIONS]",
      "",
      "Options:",
      "      --activate  Activate the draft once it is ready",
      "  -h, --help      Print help"]
  | .help => [
      "Print this message or the help of the given subcommand(s)",
      "",
      "Usage: edge-gateway help [COMMAND]...",
      "",
      "Arguments:",
      "  [COMMAND]...  Print help for the subcommand(s)"]

end EdgeRouting.CommandLine
