import ConfigSnapshot.Command.Manual
import ConfigSnapshot.Command.Options

/-!
# Completion scripts

For each shell, the script that lets it complete the command's options.
-/

namespace ConfigSnapshot
namespace Command
namespace Completion

def bash : String :=
  ofLines [
    "_nixops4__snapshot__convert() \x7b",
    "    local i cur prev opts cmd",
    "    COMPREPLY=()",
    "    if [[ \"$\x7bBASH_VERSINFO[0]\x7d\" -ge 4 ]]; then",
    "        cur=\"$2\"",
    "    else",
    "        cur=\"$\x7bCOMP_WORDS[COMP_CWORD]\x7d\"",
    "    fi",
    "    prev=\"$3\"",
    "    cmd=\"\"",
    "    opts=\"\"",
    "",
    "    for i in \"$\x7bCOMP_WORDS[@]:0:COMP_CWORD\x7d\"",
    "    do",
    "        case \"$\x7bcmd\x7d,$\x7bi\x7d\" in",
    "            \",$1\")",
    "                cmd=\"nixops4__snapshot__convert\"",
    "                ;;",
    "            *)",
    "                ;;",
    "        esac",
    "    done",
    "",
    "    case \"$\x7bcmd\x7d\" in",
    "        nixops4__snapshot__convert)",
    "            opts=\"-v -n -h -V --verbose --color --dry-run --generate-man" ++
      " --generate-markdown --generate-completion --help --version\"",
    "            if [[ $\x7bcur\x7d == -* || $\x7bCOMP_CWORD\x7d -eq 1 ]] ; then",
    "                COMPREPLY=( $(compgen -W \"$\x7bopts\x7d\" -- \"$\x7bcur\x7d\") )",
    "                return 0",
    "            fi",
    "            case \"$\x7bprev\x7d\" in",
    "                --color)",
    "                    COMPREPLY=($(compgen -W \"auto always never\" -- \"$\x7bcur\x7d\"))",
    "                    return 0",
    "                    ;;",
    "                --generate-completion)",
    "                    COMPREPLY=($(compgen -W \"bash elvish fish powershell zsh\" --" ++
      " \"$\x7bcur\x7d\"))",
    "                    return 0",
    "                    ;;",
    "                *)",
    "                    COMPREPLY=()",
    "                    ;;",
    "            esac",
    "            COMPREPLY=( $(compgen -W \"$\x7bopts\x7d\" -- \"$\x7bcur\x7d\") )",
    "            return 0",
    "            ;;",
    "    esac",
    "\x7d",
    "",
    "if [[ \"$\x7bBASH_VERSINFO[0]\x7d\" -eq 4 && \"$\x7bBASH_VERSINFO[1]\x7d\" -ge 4 ||" ++
      " \"$\x7bBASH_VERSINFO[0]\x7d\" -gt 4 ]]; then",
    "    complete -F _nixops4__snapshot__convert -o nosort -o bashdefault -o default" ++
      " nixops4-snapshot-convert",
    "else",
    "    complete -F _nixops4__snapshot__convert -o bashdefault -o default" ++
      " nixops4-snapshot-convert",
    "fi"]

def elvish : String :=
  ofLines [
    "",
    "use builtin;",
    "use str;",
    "",
    "set edit:completion:arg-completer[nixops4-snapshot-convert] = \x7b|@words|",
    "    fn spaces \x7b|n|",
    "        builtin:repeat $n ' ' | str:join ''",
    "    \x7d",
    "    fn cand \x7b|text desc|",
    "        edit:complex-candidate $text &display=$text' '(spaces (- 14 (wcswidth" ++
      " $text)))$desc",
    "    \x7d",
    "    var command = 'nixops4-snapshot-convert'",
    "    for word $words[1..-1] \x7b",
    "        if (str:has-prefix $word '-') \x7b",
    "            break",
    "        \x7d",
    "        set command = $command';'$word",
    "    \x7d",
    "    var completions = [",
    "        &'nixops4-snapshot-convert'= \x7b",
    "            cand --color 'color'",
    "            cand --generate-completion 'Generate shell completion for" ++
      " nixops4-snapshot-convert'",
    "            cand -v 'v'",
    "            cand --verbose 'verbose'",
    "            cand -n 'Report what would be converted, without writing any files'",
    "            cand --dry-run 'Report what would be converted, without writing any files'",
    "            cand --generate-man 'Generate a manpage for nixops4-snapshot-convert'",
    "            cand --generate-markdown 'Generate markdown documentation for" ++
      " nixops4-snapshot-convert'",
    "            cand -h 'Print help'",
    "            cand --help 'Print help'",
    "            cand -V 'Print version'",
    "            cand --version 'Print version'",
    "        \x7d",
    "    ]",
    "    $completions[$command]",
    "\x7d"]

def fish : String :=
  ofLines [
    "complete -c nixops4-snapshot-convert -l color -r -f -a \"auto\\t''",
    "always\\t''",
    "never\\t''\"",
    "complete -c nixops4-snapshot-convert -l generate-completion -d 'Generate shell" ++
      " completion for nixops4-snapshot-convert' -r -f -a \"bash\\t''",
    "elvish\\t''",
    "fish\\t''",
    "powershell\\t''",
    "zsh\\t''\"",
    "complete -c nixops4-snapshot-convert -s v -l verbose",
    "complete -c nixops4-snapshot-convert -s n -l dry-run -d 'Report what would be converted," ++
      " without writing any files'",
    "complete -c nixops4-snapshot-convert -l generate-man -d 'Generate a manpage for" ++
      " nixops4-snapshot-convert'",
    "complete -c nixops4-snapshot-convert -l generate-markdown -d 'Generate markdown" ++
      " documentation for nixops4-snapshot-convert'",
    "complete -c nixops4-snapshot-convert -s h -l help -d 'Print help'",
    "complete -c nixops4-snapshot-convert -s V -l version -d 'Print version'"]

def powershell : String :=
  ofLines [
    "",
    "using namespace System.Management.Automation",
    "using namespace System.Management.Automation.Language",
    "",
    "Register-ArgumentCompleter -Native -CommandName 'nixops4-snapshot-convert' -ScriptBlock" ++
      " \x7b",
    "    param($wordToComplete, $commandAst, $cursorPosition)",
    "",
    "    $commandElements = $commandAst.CommandElements",
    "    $command = @(",
    "        'nixops4-snapshot-convert'",
    "        for ($i = 1; $i -lt $commandElements.Count; $i++) \x7b",
    "            $element = $commandElements[$i]",
    "            if ($element -isnot [StringConstantExpressionAst] -or",
    "                $element.StringConstantType -ne [StringConstantType]::BareWord -or",
    "                $element.Value.StartsWith('-') -or",
    "                $element.Value -eq $wordToComplete) \x7b",
    "                break",
    "        \x7d",
    "        $element.Value",
    "    \x7d) -join ';'",
    "",
    "    $completions = @(switch ($command) \x7b",
    "        'nixops4-snapshot-convert' \x7b",
    "            [CompletionResult]::new('--color', '--color'," ++
      " [CompletionResultType]::ParameterName, 'color')",
    "            [CompletionResult]::new('--generate-completion', '--generate-completion'," ++
      " [CompletionResultType]::ParameterName, 'Generate shell completion for" ++
      " nixops4-snapshot-convert')",
    "            [CompletionResult]::new('-v', '-v', [CompletionResultType]::ParameterName," ++
      " 'v')",
    "            [CompletionResult]::new('--verbose', '--verbose'," ++
      " [CompletionResultType]::ParameterName, 'verbose')",
    "            [CompletionResult]::new('-n', '-n', [CompletionResultType]::ParameterName," ++
      " 'Report what would be converted, without writing any files')",
    "            [CompletionResult]::new('--dry-run', '--dry-run'," ++
      " [CompletionResultType]::ParameterName, 'Report what would be converted, without writing" ++
      " any files')",
    "            [CompletionResult]::new('--generate-man', '--generate-man'," ++
      " [CompletionResultType]::ParameterName, 'Generate a manpage for" ++
      " nixops4-snapshot-convert')",
    "            [CompletionResult]::new('--generate-markdown', '--generate-markdown'," ++
      " [CompletionResultType]::ParameterName, 'Generate markdown documentation for" ++
      " nixops4-snapshot-convert')",
    "            [CompletionResult]::new('-h', '-h', [CompletionResultType]::ParameterName," ++
      " 'Print help')",
    "            [CompletionResult]::new('--help', '--help'," ++
      " [CompletionResultType]::ParameterName, 'Print help')",
    "            [CompletionResult]::new('-V', '-V ', [CompletionResultType]::ParameterName," ++
      " 'Print version')",
    "            [CompletionResult]::new('--version', '--version'," ++
      " [CompletionResultType]::ParameterName, 'Print version')",
    "            break",
    "        \x7d",
    "    \x7d)",
    "",
    "    $completions.Where\x7b $_.CompletionText -like \"$wordToComplete*\" \x7d |",
    "        Sort-Object -Property ListItemText",
    "\x7d"]

def zsh : String :=
  ofLines [
    "#compdef nixops4-snapshot-convert",
    "",
    "autoload -U is-at-least",
    "",
    "_nixops4-snapshot-convert() \x7b",
    "    typeset -A opt_args",
    "    typeset -a _arguments_options",
    "    local ret=1",
    "",
    "    if is-at-least 5.2; then",
    "        _arguments_options=(-s -S -C)",
    "    else",
    "        _arguments_options=(-s -C)",
    "    fi",
    "",
    "    local context curcontext=\"$curcontext\" state line",
    "    _arguments \"$\x7b_arguments_options[@]\x7d\" : \\",
    "'--color=[]:COLOR:(auto always never)' \\",
    "'--generate-completion=[Generate shell completion for" ++
      " nixops4-snapshot-convert]:SHELL:(bash elvish fish powershell zsh)' \\",
    "'-v[]' \\",
    "'--verbose[]' \\",
    "'-n[Report what would be converted, without writing any files]' \\",
    "'--dry-run[Report what would be converted, without writing any files]' \\",
    "'--generate-man[Generate a manpage for nixops4-snapshot-convert]' \\",
    "'--generate-markdown[Generate markdown documentation for nixops4-snapshot-convert]' \\",
    "'-h[Print help]' \\",
    "'--help[Print help]' \\",
    "'-V[Print version]' \\",
    "'--version[Print version]' \\",
    "'::modules_directory -- Directory containing the `*.nix` modules to convert (not" ++
      " recursive):_files' \\",
    "&& ret=0",
    "\x7d",
    "",
    "(( $+functions[_nixops4-snapshot-convert_commands] )) ||",
    "_nixops4-snapshot-convert_commands() \x7b",
    "    local commands; commands=()",
    "    _describe -t commands 'nixops4-snapshot-convert commands' commands \"$@\"",
    "\x7d",
    "",
    "if [ \"$funcstack[1]\" = \"_nixops4-snapshot-convert\" ]; then",
    "    _nixops4-snapshot-convert \"$@\"",
    "else",
    "    compdef _nixops4-snapshot-convert nixops4-snapshot-convert",
    "fi"]

end Completion

def Shell.completion : Shell → String
  | .bash => Completion.bash
  | .elvish => Completion.elvish
  | .fish => Completion.fish
  | .powershell => Completion.powershell
  | .zsh => Completion.zsh

end Command
end ConfigSnapshot
