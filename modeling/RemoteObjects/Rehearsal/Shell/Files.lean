/-!
# Files

What the machine has in its directories before anything runs.
-/

namespace RemoteObjects.Rehearsal.Shell

inductive Kind where
  | directory
  | file
  | device
  deriving DecidableEq

def directories : List String :=
  ["/", ".", "..", "/bin", "/boot", "/dev", "/etc", "/home", "/lib", "/media", "/mnt", "/opt",
    "/proc", "/root", "/run", "/sbin", "/srv", "/sys", "/tmp", "/usr", "/usr/bin", "/usr/lib",
    "/usr/local", "/usr/local/bin", "/usr/sbin", "/usr/share", "/var", "/var/lib", "/var/log",
    "/var/tmp"]

def plainFiles : List String :=
  ["/etc/passwd", "/etc/group", "/etc/hosts", "/etc/hostname", "/etc/os-release"]

def devices : List String :=
  ["/dev/null", "/dev/zero", "/dev/full", "/dev/random", "/dev/urandom", "/dev/stdin",
    "/dev/stdout", "/dev/stderr", "/dev/tty"]

/-- The programs, by the status with which they refuse an option that they do not have. -/
def programs : List (UInt8 × List String) :=
  [(0, ["echo", "printf", "true"]),
    (1, ["arch", "base64", "basename", "cat", "chgrp", "chmod", "chown", "cksum", "comm", "cp",
      "cut", "date", "dd", "df", "dirname", "du", "expand", "factor", "false", "find", "fmt",
      "fold", "groups", "head", "hostid", "id", "install", "join", "kill", "link", "ln", "logname",
      "md5sum", "mkdir", "mkfifo", "mknod", "mktemp", "mv", "nl", "nproc", "od", "paste", "pr",
      "pwd", "readlink", "realpath", "rev", "rm", "sed", "seq", "setsid", "sha256sum", "shred",
      "shuf", "sleep", "split", "stat", "stty", "sum", "sync", "tac", "tail", "tee", "touch", "tr",
      "truncate", "tsort", "uname", "uniq", "unlink", "users", "wc", "who", "whoami", "xargs",
      "yes"]),
    (2, ["[", "awk", "bash", "cmp", "dash", "diff", "dir", "egrep", "expr", "fgrep", "grep", "ls",
      "mawk", "printenv", "sh", "sort", "test", "tty", "vdir", "which"]),
    (125, ["env", "nice", "nohup", "stdbuf", "timeout"]),
    (255, ["hostname"])]

/-- The status of a program that is given an option which it does not have. -/
def refusal (name : String) : UInt8 := ((programs.find? fun p ↦ name ∈ p.2).map Prod.fst).getD 1

/-- The directory and the last part of a path. -/
def splitPath (path : String) : String × String :=
  let parts := path.splitOn "/"
  let folder := "/".intercalate parts.dropLast
  (if path.startsWith "/" && folder.isEmpty then "/" else if folder.isEmpty then "." else folder,
    parts.getLast?.getD "")

/-- The path from the root to where a path leads from a folder. -/
def resolve (folder path : String) : String :=
  let step (parts : List String) (part : String) : List String :=
    if part ∈ ["", "."] then parts else if part = ".." then parts.drop 1 else part :: parts
  let whole := if path.startsWith "/" then path else folder ++ "/" ++ path
  "/" ++ "/".intercalate ((whole.splitOn "/").foldl step []).reverse

/-- Directories of programs. -/
def shelves : List String := ["/bin", "/sbin", "/usr/bin", "/usr/sbin"]

/-- The program that a path leads to or, if it names no directory, one of some directories has. -/
def program? (searched : List String) (path : String) : Option String :=
  let (folder, name) := splitPath path
  let folders := if path.contains '/' then [folder] else searched
  if folders.any (· ∈ shelves) && programs.any (name ∈ ·.2) then some name else none

end RemoteObjects.Rehearsal.Shell
