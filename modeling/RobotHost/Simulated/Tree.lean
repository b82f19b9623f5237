import RobotHost.Files.Basic

/-!
# The files of a simulated host

The usual tree of a host: directories for programs, settings and data, a few devices, and the
programs that every host has. `workingDirectory` is empty.
-/

namespace RobotHost.Simulated

/-- The place that a path from the root leads to if there are no links on the way. -/
def placeOf (path : String) : Place := path.splitOn "/"

def directories : List String :=
  ["usr", "usr/bin", "usr/sbin", "usr/lib", "usr/lib64", "usr/include", "usr/share", "usr/src",
    "usr/games", "usr/libexec", "usr/local", "usr/local/bin", "usr/local/sbin", "usr/local/lib",
    "usr/local/etc", "usr/local/share", "usr/local/include", "usr/local/src", "usr/local/games",
    "boot", "dev", "dev/mqueue", "dev/pts", "dev/shm", "etc", "home", "media", "mnt", "opt", "proc",
    "proc/self", "proc/self/fd", "root", "run", "run/lock", "srv", "sys", "tmp", "tmp/work", "var",
    "var/backups", "var/cache", "var/lib", "var/local", "var/log", "var/mail", "var/opt",
    "var/spool", "var/tmp"]

/-- Links, with the paths that they lead to. -/
def links : List (String × String) :=
  [("bin", "usr/bin"), ("sbin", "usr/sbin"), ("lib", "usr/lib"), ("lib64", "usr/lib64"),
    ("var/run", "/run"), ("var/lock", "/run/lock"), ("dev/fd", "/proc/self/fd"),
    ("dev/stdin", "/proc/self/fd/0"), ("dev/stdout", "/proc/self/fd/1"),
    ("dev/stderr", "/proc/self/fd/2")]

def devices : List (String × SystemDevice) :=
  [("dev/null", .null), ("dev/zero", .zero), ("dev/full", .full), ("dev/random", .zero),
    ("dev/urandom", .zero), ("dev/tty", .terminal)] ++
    (List.range 10).map fun n => ("proc/self/fd/" ++ toString n, .descriptor n)

/-- The users of the host: name, number, and home directory. -/
def users : List (String × Nat × String) :=
  [("root", 0, "/root"), ("daemon", 1, "/usr/sbin"), ("bin", 2, "/bin"), ("sys", 3, "/dev"),
    ("sync", 4, "/bin"), ("games", 5, "/usr/games"), ("man", 6, "/var/cache/man"),
    ("lp", 7, "/var/spool/lpd"), ("mail", 8, "/var/mail"), ("news", 9, "/var/spool/news"),
    ("uucp", 10, "/var/spool/uucp"), ("proxy", 13, "/bin"), ("www-data", 33, "/var/www"),
    ("backup", 34, "/var/backups"), ("list", 38, "/var/list"), ("irc", 39, "/run/ircd"),
    ("_apt", 42, "/nonexistent"), ("nobody", 65534, "/nonexistent")]

def userLine (u : String × Nat × String) : String :=
  let (name, number, home) := u
  String.intercalate ":" [name, "x", toString number, toString number, name, home, "/bin/sh"] ++ "\n"

/-- Files, with what can be read from them. -/
def texts : List (String × String) :=
  [("etc/passwd", String.join (users.map userLine)), ("etc/group", "root:x:0:\n"),
    ("etc/shadow", "root:*:0:0:99999:7:::\n"), ("etc/hosts", "127.0.0.1\tlocalhost\n"),
    ("etc/hostname", "robot\n"), ("etc/resolv.conf", ""), ("etc/fstab", ""), ("etc/profile", ""),
    ("etc/shells", "/bin/sh\n")]

/-- The programs, with what they do. -/
def programs : List (String × String) :=
  [("sh", "sh"), ("dash", "sh"), ("bash", "sh"), ("env", "env")] ++
    ["true", "false", "echo", "printf", "sleep", "test", "[", "pwd", "cat", "ls"].map fun name =>
      (name, name)

/-- The tree of files. -/
def files : Files where
  nodes :=
    directories.map (fun path => (placeOf path, .directory)) ++
      links.map (fun l => (placeOf l.1, .link l.2)) ++
      devices.map (fun d => (placeOf d.1, .device d.2)) ++
      texts.map (fun t => (placeOf t.1, .data t.2.toUTF8)) ++
      programs.map fun p => (["usr", "bin", p.1], .program p.2)

/-- The directory in which the host works. -/
def workingDirectory : Place := ["tmp", "work"]

/-- The directories in which programs are found. -/
def searchPath : List String :=
  ["/usr/local/sbin", "/usr/local/bin", "/usr/sbin", "/usr/bin", "/sbin", "/bin"]

end RobotHost.Simulated
