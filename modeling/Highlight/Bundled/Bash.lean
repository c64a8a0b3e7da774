import Highlight.Bundled.Words
import Highlight.Registry

/-! Bash, also known as shell. Strings, here-documents and command substitutions nest in each other. The
    grammar inside command substitutions is therefore a language of its own, which the others refer to by
    its name. -/

namespace Highlight.Bundled.Bash

def language : String := "bash"

/-- Further names of the language. -/
def aliases : List String := ["shell"]

/-- The language inside command substitutions. -/
def substitution : String := "bash/command-substitution"

/-- The variables that the shell or the system sets. -/
def environment : String :=
  "BASH BASHOPTS BASH_ALIASES BASH_ARGC BASH_ARGV BASH_CMDS BASH_COMPLETION_COMPAT_DIR " ++
  "BASH_LINENO BASH_REMATCH BASH_SOURCE BASH_VERSINFO BASH_VERSION COLORTERM COLUMNS " ++
  "COMP_WORDBREAKS DBUS_SESSION_BUS_ADDRESS DEFAULTS_PATH DESKTOP_SESSION DIRSTACK DISPLAY EUID " ++
  "GDMSESSION GDM_LANG GNOME_KEYRING_CONTROL GNOME_KEYRING_PID GPG_AGENT_INFO GROUPS " ++
  "HISTCONTROL HISTFILE HISTFILESIZE HISTSIZE HOME HOSTNAME HOSTTYPE IFS INSTANCE JOB LANG " ++
  "LANGUAGE LC_ADDRESS LC_ALL LC_IDENTIFICATION LC_MEASUREMENT LC_MONETARY LC_NAME LC_NUMERIC " ++
  "LC_PAPER LC_TELEPHONE LC_TIME LESSCLOSE LESSOPEN LINES LOGNAME LS_COLORS MACHTYPE MAILCHECK " ++
  "MANDATORY_PATH NO_AT_BRIDGE OLDPWD OPTERR OPTIND ORBIT_SOCKETDIR OSTYPE PAPERSIZE PATH " ++
  "PIPESTATUS PPID PS1 PS2 PS3 PS4 PWD RANDOM REPLY SECONDS SELINUX_INIT SESSION SESSIONTYPE " ++
  "SESSION_MANAGER SHELL SHELLOPTS SHLVL SSH_AUTH_SOCK TERM UID UPSTART_EVENTS UPSTART_INSTANCE " ++
  "UPSTART_JOB UPSTART_SESSION USER WINDOWID XAUTHORITY XDG_CONFIG_DIRS XDG_CURRENT_DESKTOP " ++
  "XDG_DATA_DIRS XDG_GREETER_DATA_DIR XDG_MENU_PREFIX XDG_RUNTIME_DIR XDG_SEAT XDG_SEAT_PATH " ++
  "XDG_SESSION_DESKTOP XDG_SESSION_ID XDG_SESSION_PATH XDG_SESSION_TYPE XDG_VTNR XMODIFIERS"

/-- Commands that most systems have. -/
def commands : String :=
  "add apropos apt aptitude apt-cache apt-get aspell automysqlbackup awk basename bash bc " ++
  "bconsole bg bzip2 cal cat cfdisk chgrp chkconfig chmod chown chroot cksum clear cmp column " ++
  "comm composer cp cron crontab csplit curl cut date dc dd ddrescue debootstrap df diff diff3 " ++
  "dig dir dircolors dirname dirs dmesg du egrep eject env ethtool expand expect expr fdformat " ++
  "fdisk fg fgrep file find fmt fold format free fsck ftp fuser gawk git gparted grep groupadd " ++
  "groupdel groupmod groups grub-mkconfig gzip halt head hg history host hostname htop iconv id " ++
  "ifconfig ifdown ifup import ip jobs join kill killall less link ln locate logname logrotate " ++
  "look lpc lpr lprint lprintd lprintq lprm ls lsof lynx make man mc mdadm mkconfig mkdir " ++
  "mke2fs mkfifo mkfs mkisofs mknod mkswap mmv more most mount mtools mtr mutt mv nano nc " ++
  "netstat nice nl nohup notify-send npm nslookup op open parted passwd paste pathchk ping " ++
  "pkill pnpm popd pr printcap printenv ps pushd pv quota quotacheck quotactl ram rar rcp " ++
  "reboot remsync rename renice rev rm rmdir rpm rsync scp screen sdiff sed sendmail seq " ++
  "service sftp sh shellcheck shuf shutdown sleep slocate sort split ssh stat strace su sudo " ++
  "sum suspend swapon sync tac tail tar tee time timeout top touch tr traceroute tsort tty " ++
  "umount uname unexpand uniq units unrar unshar unzip update-grub uptime useradd userdel " ++
  "usermod users uudecode uuencode v vdir vi vim virsh vmstat wait watch wc wget whereis which " ++
  "who whoami write xargs xdg-open yarn yes zenity zip zsh zypper"

/-- Commands that fewer systems have. -/
def extraCommands : String :=
  "nelua luarocks pacman"

/-- The reserved words. -/
def keywords : String :=
  "if then else elif fi for while in case esac function select do done until"

/-- Commands that the shell itself carries out. -/
def builtins : String :=
  ". : break cd continue eval exec exit export getopts hash pwd readonly return shift test " ++
  "times trap umask unset alias bind builtin caller command declare echo enable help let local " ++
  "logout mapfile printf read readarray source type typeset ulimit unalias set shopt"

/-- The entries that command substitutions share with the language. -/
def shared : List String := [
  "comment", "function-name", "for-or-select", "assign-left", "string", "environment", "function", "keyword",
  "builtin", "boolean", "file-descriptor", "operator", "punctuation", "number"]

/-- The start of a command: the start of the text, a blank, a separator or a process substitution. -/
def commandStart : String := "(^|[\\s;|&]|[<>]\\()"

/-- A word in the place of a command. -/
def command (words : String) : RuleDetails :=
  { pattern := commandStart ++ "(?:" ++ anyOf words ++ ")(?=$|[)\\s;|&])", lookbehind := true }

/-- The inside of an arithmetic expansion. -/
def arithmetic : Definition :=
  { entries := [
      many "variable" [
        { pattern := "(^\\$\\(\\([\\s\\S]+)\\)\\)", lookbehind := true },
        { pattern := "^\\$\\(\\(" }],
      bare "number" "\\b0x[\\dA-Fa-f]+\\b|(?:\\b\\d+\\.?\\d*|\\B\\.\\d+)(?:[Ee]-?\\d+)?",
      bare "operator"
        ("--?|-=|\\+\\+?|\\+=|!=?|~|\\*\\*?|\\*=|/=?|%=?|<<=?|>>=?|<=?|>=?|==?|&&?|&=|\\^=?|\\|\\|?|\\|=|\\?|:"),
      bare "punctuation" "\\(\\(?|\\)\\)?|,|;"] }

/-- The inside of an expansion in braces. -/
def braces : Definition :=
  { entries := [
      bare "operator" ":[-=?+]?|[!/]|##?|%%?|\\^\\^?|,,?",
      bare "punctuation" "[\\[\\]]",
      one "environment" {
        pattern := "(\\\x7b)" ++ wholeWord environment
        lookbehind := true
        aliasName := some "constant" }] }

/-- Expansions of variables, expressions and commands. -/
def expansions : List RuleDetails := [
  { pattern := "\\$?\\(\\([\\s\\S]+?\\)\\)", greedy := true, inside := some (.inline arithmetic) },
  { pattern := "\\$\\((?:\\([^)]+\\)|[^()])+\\)|\x60[^\x60]+\x60"
    greedy := true
    inside := some (.named substitution) },
  { pattern := "\\$\\\x7b[^\x7d]+\\\x7d", greedy := true, inside := some (.inline braces) },
  { pattern := "\\$(?:\\w+|[#?*!@$])" }]

/-- What is replaced in double quotes and in here-documents. -/
def interpolation : Definition :=
  { entries := [
      one "environment" { pattern := "\\$" ++ wholeWord environment, aliasName := some "constant" },
      many "variable" expansions,
      bare "entity"
        ("\\\\(?:[abceEfnrtv\\\\\"]|O?[0-7]\x7b1,3\x7d|x[0-9a-fA-F]\x7b1,2\x7d" ++
          "|u[0-9a-fA-F]\x7b4\x7d|U[0-9a-fA-F]\x7b8\x7d)")] }

/-- Here-documents, plain and quoted, and strings. -/
def strings : List RuleDetails := [
  { pattern := "((?:^|[^<])<<-?\\s*)(\\w+?)\\s*(?:\\r?\\n|\\r)[\\s\\S]*?(?:\\r?\\n|\\r)\\2"
    lookbehind := true
    greedy := true
    inside := some (.inline interpolation) },
  { pattern := "((?:^|[^<])<<-?\\s*)([\"'])(\\w+)\\2\\s*(?:\\r?\\n|\\r)[\\s\\S]*?(?:\\r?\\n|\\r)\\3"
    lookbehind := true
    greedy := true },
  { pattern :=
      "(^|[^\\\\](?:\\\\\\\\)*)([\"'])(?:\\\\[\\s\\S]|\\$\\([^)]+\\)|\x60[^\x60]+\x60|(?!\\2)[^\\\\])*\\2"
    lookbehind := true
    greedy := true
    inside := some (.inline interpolation) }]

def definition : Definition :=
  { entries := [
      one "shebang" { pattern := "^#!\\s*/.*", aliasName := some "important" },
      one "comment" { pattern := "(^|[^\"\x7b\\\\$])#.*", lookbehind := true },
      many "function-name" [
        { pattern := "(\\bfunction\\s+)\\w+(?=(?:\\s*\\(?:\\s*\\))?\\s*\\\x7b)"
          lookbehind := true
          aliasName := some "function" },
        { pattern := "\\b\\w+(?=\\s*\\(\\s*\\)\\s*\\\x7b)", aliasName := some "function" }],
      one "for-or-select" {
        pattern := "(\\b(?:for|select)\\s+)\\w+(?=\\s+in\\s)"
        lookbehind := true
        aliasName := some "variable" },
      one "assign-left" {
        pattern := commandStart ++ "\\w+(?=\\+?=)"
        lookbehind := true
        aliasName := some "variable"
        inside := some (.inline {
          entries := [
            one "environment" {
              pattern := commandStart ++ wholeWord environment
              lookbehind := true
              aliasName := some "constant" }] }) },
      many "string" strings,
      one "environment" { pattern := "\\$?" ++ wholeWord environment, aliasName := some "constant" },
      many "variable" expansions,
      one "function" (command commands),
      one "extra-functions" { command extraCommands with aliasName := some "function" },
      one "keyword" (command keywords),
      one "builtin" { command builtins with aliasName := some "class-name" },
      one "boolean" (command "true false"),
      one "file-descriptor" { pattern := "\\B&\\d\\b", aliasName := some "important" },
      one "operator" {
        pattern := "\\d?<>|>\\||\\+=|==?|!=?|=~|<<[<-]?|[&\\d]?>>|\\d?[<>]&?|&[>&]?|\\|[&|]?|<=?|>=?"
        inside := some (.inline {
          entries := [one "file-descriptor" { pattern := "^\\d", aliasName := some "important" }] }) },
      bare "punctuation" "\\$?\\(\\(?|\\)\\)?|\\.\\.|[\x7b\x7d\\[\\];\\\\]",
      one "number" { pattern := "(^|\\s)(?:[1-9]\\d*|0)(?:[.,]\\d+)?\\b", lookbehind := true }] }

/-- The delimiters of a command substitution. -/
def delimiters : Definition :=
  { entries := [bare "variable" "^\\$\\(|^\x60|\\)$|\x60$"] }

/-- Adds Bash, its other names and its command substitutions to a registry. -/
def register (r : Registry) : Except GrammarError Registry := do
  let bash ← definition.compile Pattern.defaultFailures
  let start ← delimiters.compile Pattern.defaultFailures
  let inside := shared.foldl (fun g name =>
    match bash.rules? name with
    | some rules => g.set name rules
    | none => g) start
  let r := (r.define language bash).define substitution inside
  aliases.foldlM (fun r name => r.addAlias name language) r

end Highlight.Bundled.Bash
