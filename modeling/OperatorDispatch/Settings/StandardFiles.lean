import OperatorDispatch.Settings.File

/-!
# The standard files

Settings can be loaded from any file system.  The one described here needs no machine: a tree of
directories with symbolic links, which holds the directories, devices, links and common files that
most machines have.  Files whose contents differ from one machine to the next stand here with a text
that holds no settings.

A path is walked from the root or from the working directory; an empty part, such as after a final
slash, stays where it is but asks for a directory.  A link puts the parts of its own path in front
of what is left of the path.
-/

namespace OperatorDispatch

namespace FileError

/-- A part of the path does not exist. -/
def notFound : FileError := ⟨"No such file or directory (os error 2)"⟩

/-- A part of the path other than the last is no directory. -/
def notADirectory : FileError := ⟨"Not a directory (os error 20)"⟩

/-- The path leads to a directory. -/
def isADirectory : FileError := ⟨"Is a directory (os error 21)"⟩

/-- A part of the path, or the whole path, is too long. -/
def nameTooLong : FileError := ⟨"File name too long (os error 36)"⟩

/-- The path contains a NUL character. -/
def interiorNul : FileError := ⟨"file name contained an unexpected NUL byte"⟩

/-- The path follows too many links. -/
def tooManyLinks : FileError := ⟨"Too many levels of symbolic links (os error 40)"⟩

/-- Reading fails. -/
def inputOutput : FileError := ⟨"Input/output error (os error 5)"⟩

/-- Nothing is attached to the device. -/
def noDevice : FileError := ⟨"No such device or address (os error 6)"⟩

/-- The file has no end. -/
def outOfMemory : FileError := ⟨"out of memory"⟩

/-- The bytes of the file are no UTF-8. -/
def notText : FileError := ⟨"stream did not contain valid UTF-8"⟩

end FileError

/-- An entry of a directory. -/
inductive FileTree where
  /-- A file with its bytes, or the reason why they cannot be read. -/
  | file (bytes : Except FileError ByteArray)
  /-- A directory with its named entries. -/
  | directory (entries : List (String × FileTree))
  /-- A symbolic link to a path, which starts at the root or in the directory of the link. -/
  | link (path : String)

/-- The named entries of a directory. -/
abbrev Directory := List (String × FileTree)

namespace Directory

/-- The longest name of an entry, in bytes. -/
def maxNameLength : Nat := 255

/-- The bytes of the file at a path from a directory, when at most `links` links may be followed.
The directories above are `above`, nearest first; the root is above itself. -/
def bytesAt (place : Directory) (above : List Directory) (links : Nat) :
    List String → Except FileError ByteArray
  | [] => .error .isADirectory
  | name :: path =>
      if name = "" ∨ name = "." then
        bytesAt place above links path
      else if name = ".." then
        match above with
        | [] => bytesAt place [] links path
        | parent :: above => bytesAt parent above links path
      else if name.utf8ByteSize > maxNameLength then
        .error .nameTooLong
      else
        match place.lookup name with
        | none => .error .notFound
        | some (.file bytes) => if path = [] then bytes else .error .notADirectory
        | some (.directory entries) => bytesAt entries (place :: above) links path
        | some (.link target) =>
            match links with
            | 0 => .error .tooManyLinks
            | links + 1 =>
                let path := target.splitOn "/" ++ path
                if target.startsWith "/" then
                  bytesAt (above.getLastD place) [] links path
                else
                  bytesAt place above links path
termination_by path => (links, path.length)

/-- The longest path, in bytes. -/
def maxPathLength : Nat := 4095

/-- The number of links that one path may follow. -/
def maxLinks : Nat := 40

/-- The text of the file at a path, when relative paths start from the names `working`. -/
def textAt (root : Directory) (working : List String) (path : String) :
    Except FileError String := do
  if path.contains '\x00' then
    throw .interiorNul
  if path = "" then
    throw .notFound
  if path.utf8ByteSize > maxPathLength then
    throw .nameTooLong
  let parts := path.splitOn "/"
  let parts := if path.startsWith "/" then parts else working ++ parts
  match String.fromUTF8? (← root.bytesAt [] maxLinks parts) with
  | some text => return text
  | none => throw .notText

end Directory

namespace StandardFiles

/-- Empty directories. -/
def directories (names : List String) : Directory :=
  names.map fun name => (name, .directory [])

/-- Files of which all have the same bytes, or the same reason why they cannot be read. -/
def files (bytes : Except FileError ByteArray) (names : List String) : Directory :=
  names.map fun name => (name, .file bytes)

/-- Texts without settings. -/
def texts (names : List String) : Directory :=
  files (.ok "no settings\n".toUTF8) names

/-- Programs, whose bytes are no text. -/
def programs (names : List String) : Directory :=
  files (.ok ⟨#[0x7f, 0x45, 0x4c, 0x46, 0xff]⟩) names

/-- Links with their paths. -/
def links (targets : List (String × String)) : Directory :=
  targets.map fun (name, path) => (name, .link path)

/-- The devices.  The null device is empty, some devices have no end, and no terminal is attached
to the process. -/
def devices : Directory :=
  files (.ok ⟨#[]⟩) ["null"] ++
    files (.error .outOfMemory) ["full", "random", "urandom", "zero"] ++
    files (.error .noDevice) ["tty"] ++
    links [("fd", "/proc/self/fd"), ("stdin", "/proc/self/fd/0"), ("stdout", "/proc/self/fd/1"),
      ("stderr", "/proc/self/fd/2")] ++
    directories ["mqueue", "pts", "shm"]

/-- What the system tells about a process in the working directory `working`. -/
def process (working : String) : Directory :=
  texts ["cgroup", "cmdline", "comm", "environ", "limits", "loginuid", "maps", "mountinfo",
      "mounts", "oom_score", "oom_score_adj", "smaps", "stat", "statm", "status"] ++
    programs ["exe"] ++
    files (.error .inputOutput) ["mem"] ++
    links [("cwd", working), ("root", "/")] ++
    directories ["attr", "fdinfo", "net", "ns"] ++
    [("fd", .directory (files (.ok ⟨#[]⟩) ["0", "1", "2"])),
      ("task", .directory (directories ["1"]))]

/-- What the system tells about itself and its processes. -/
def processes (working : String) : Directory :=
  [("1", .directory (process working))] ++
    links [("self", "1"), ("thread-self", "1/task/1"), ("mounts", "self/mounts"),
      ("net", "self/net")] ++
    texts ["cmdline", "cpuinfo", "devices", "diskstats", "filesystems", "interrupts", "loadavg",
      "meminfo", "partitions", "stat", "swaps", "uptime", "version", "vmstat"] ++
    directories ["bus", "driver", "fs", "irq", "sys", "tty"]

/-- The configuration of the machine.  Its table of file systems holds a comment only. -/
def configuration : Directory :=
  texts ["bash.bashrc", "group", "gshadow", "host.conf", "hostname", "hosts", "issue", "ld.so.conf",
      "login.defs", "nsswitch.conf", "passwd", "profile", "resolv.conf", "shadow", "shells"] ++
    files (.ok "# no file systems\n".toUTF8) ["fstab"] ++
    links [("mtab", "/proc/mounts"), ("os-release", "../usr/lib/os-release")] ++
    directories ["alternatives", "apt", "cron.d", "default", "init.d", "ld.so.conf.d", "opt",
      "pam.d", "profile.d", "security", "skel", "ssl"]

/-- The programs and what they need. -/
def applications : Directory :=
  [("bin", .directory (programs ["[", "awk", "bash", "cat", "chmod", "cp", "date", "dd", "echo",
      "env", "false", "find", "grep", "head", "id", "ln", "ls", "mkdir", "mv", "perl", "ps", "pwd",
      "rm", "sed", "sh", "sleep", "sort", "tail", "tar", "test", "touch", "tr", "true", "uname",
      "wc", "whoami", "xargs"])),
    ("lib", .directory (texts ["os-release"])),
    ("local", .directory (directories ["bin", "etc", "games", "include", "lib", "sbin", "share",
      "src"])),
    ("share", .directory (directories ["doc", "man", "zoneinfo"]))] ++
    directories ["games", "include", "lib64", "libexec", "sbin", "src"]

/-- The data that programs keep. -/
def data : Directory :=
  links [("lock", "/run/lock"), ("run", "/run")] ++
    directories ["backups", "cache", "lib", "local", "log", "mail", "opt", "spool", "tmp"]

/-- What the system tells about its devices and its own parts. -/
def system : Directory :=
  [("fs", .directory (directories ["cgroup"])),
    ("kernel", .directory (directories ["mm"]))] ++
    directories ["block", "bus", "class", "dev", "devices", "firmware", "module", "power"]

/-- The root directory. -/
def root : Directory :=
  [("dev", .directory devices), ("etc", .directory configuration),
    ("proc", .directory (processes "/tmp")), ("run", .directory (directories ["lock"])),
    ("sys", .directory system), ("usr", .directory applications), ("var", .directory data)] ++
    links [("bin", "usr/bin"), ("lib", "usr/lib"), ("lib64", "usr/lib64"), ("sbin", "usr/sbin")] ++
    directories ["boot", "home", "media", "mnt", "opt", "root", "srv", "tmp"]

end StandardFiles

/-- The standard files, seen from the directory for temporary files. -/
def standardFiles : FileSystem where
  readText := StandardFiles.root.textAt ["tmp"]

end OperatorDispatch
