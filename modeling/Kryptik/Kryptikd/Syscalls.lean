import Mathlib

namespace Kryptik.Kryptikd.Seccomp

/-- The calls a zoned process may make, by name, with their numbers on x86-64. -/
def baseNames : List (String × ℤ) := [
  -- file I/O
  ("read", 0), ("write", 1), ("readv", 19), ("writev", 20), ("pread64", 17), ("pwrite64", 18),
  ("preadv", 295), ("pwritev", 296), ("open", 2), ("openat", 257), ("close", 3), ("lseek", 8),
  ("stat", 4), ("fstat", 5), ("lstat", 6), ("newfstatat", 262), ("statx", 332), ("access", 21),
  ("faccessat", 269), ("faccessat2", 439), ("getdents64", 217), ("readlink", 89),
  ("readlinkat", 267), ("fcntl", 72), ("ioctl", 16), ("dup", 32), ("dup2", 33), ("dup3", 292),
  ("pipe", 22), ("pipe2", 293), ("fsync", 74), ("fdatasync", 75), ("ftruncate", 77),
  ("truncate", 76), ("getcwd", 79), ("chdir", 80), ("fchdir", 81), ("rename", 82),
  ("renameat", 264), ("renameat2", 316), ("mkdir", 83), ("mkdirat", 258), ("rmdir", 84),
  ("unlink", 87), ("unlinkat", 263), ("symlink", 88), ("symlinkat", 266), ("link", 86),
  ("linkat", 265), ("umask", 95), ("flock", 73), ("fallocate", 285), ("creat", 85),
  ("openat2", 437), ("close_range", 436), ("mknod", 133), ("mknodat", 259), ("chmod", 90),
  ("fchmod", 91), ("fchmodat", 268), ("fchmodat2", 452), ("chown", 92), ("fchown", 93),
  ("lchown", 94), ("fchownat", 260), ("copy_file_range", 326), ("sendfile", 40), ("splice", 275),
  ("fadvise64", 221), ("readahead", 187), ("utimensat", 280), ("futimesat", 261), ("sync", 162),
  ("syncfs", 306), ("getxattr", 191), ("lgetxattr", 192), ("fgetxattr", 193), ("listxattr", 194),
  ("llistxattr", 195), ("flistxattr", 196), ("setxattr", 188), ("lsetxattr", 189),
  ("fsetxattr", 190), ("removexattr", 197), ("lremovexattr", 198), ("fremovexattr", 199),
  -- memory
  ("mmap", 9), ("munmap", 11), ("mremap", 25), ("brk", 12), ("madvise", 28), ("mlock", 149),
  ("munlock", 150), ("memfd_create", 319), ("msync", 26), ("mprotect", 10),
  -- process / thread lifecycle
  ("clone", 56), ("clone3", 435), ("fork", 57), ("vfork", 58), ("execve", 59), ("execveat", 322),
  ("exit", 60), ("exit_group", 231), ("wait4", 61), ("waitid", 247), ("pidfd_open", 434),
  ("pidfd_send_signal", 424), ("getpid", 39), ("getppid", 110), ("gettid", 186), ("getuid", 102),
  ("geteuid", 107), ("getgid", 104), ("getegid", 108), ("getgroups", 115), ("getpgrp", 111),
  ("getpgid", 121), ("setpgid", 109), ("getsid", 124), ("setsid", 112), ("getrusage", 98),
  ("getrlimit", 97), ("prlimit64", 302), ("sched_yield", 24), ("sched_getaffinity", 204),
  ("sched_setaffinity", 203), ("getcpu", 309), ("capget", 125), ("set_tid_address", 218),
  ("set_robust_list", 273), ("get_robust_list", 274), ("futex", 202), ("arch_prctl", 158),
  ("membarrier", 324), ("getpriority", 140), ("setpriority", 141), ("sched_getparam", 143),
  ("sched_getscheduler", 145), ("sched_get_priority_max", 146), ("sched_get_priority_min", 147),
  ("sched_getattr", 315), ("ioprio_get", 252), ("getresuid", 118), ("getresgid", 120),
  -- signals
  ("rt_sigaction", 13), ("rt_sigprocmask", 14), ("rt_sigreturn", 15), ("rt_sigpending", 127),
  ("rt_sigsuspend", 130), ("rt_sigtimedwait", 128), ("sigaltstack", 131), ("kill", 62),
  ("tgkill", 234), ("tkill", 200), ("restart_syscall", 219),
  -- time
  ("clock_gettime", 228), ("clock_getres", 229), ("clock_nanosleep", 230), ("gettimeofday", 96),
  ("nanosleep", 35), ("times", 100), ("alarm", 37), ("setitimer", 38), ("getitimer", 36),
  ("pause", 34), ("timer_create", 222), ("timer_settime", 223), ("timer_gettime", 224),
  ("timer_getoverrun", 225), ("timer_delete", 226),
  -- polling
  ("poll", 7), ("ppoll", 271), ("select", 23), ("pselect6", 270), ("epoll_create", 213),
  ("epoll_create1", 291), ("epoll_ctl", 233), ("epoll_wait", 232), ("epoll_pwait", 281),
  ("epoll_pwait2", 441), ("eventfd", 284), ("eventfd2", 290), ("signalfd", 282), ("signalfd4", 289),
  ("timerfd_create", 283), ("timerfd_settime", 286), ("timerfd_gettime", 287),
  ("inotify_add_watch", 254), ("inotify_rm_watch", 255),
  -- sockets
  ("socket", 41), ("socketpair", 53), ("bind", 49), ("listen", 50), ("accept", 43),
  ("accept4", 288), ("connect", 42), ("shutdown", 48), ("getsockname", 51), ("getpeername", 52),
  ("setsockopt", 54), ("getsockopt", 55), ("sendto", 44), ("recvfrom", 45), ("sendmsg", 46),
  ("recvmsg", 47), ("sendmmsg", 307), ("recvmmsg", 299),
  -- misc
  ("uname", 63), ("sysinfo", 99), ("getrandom", 318), ("prctl", 157), ("rseq", 334),
  ("statfs", 137), ("fstatfs", 138), ("map_shadow_stack", 453)]

def baseAllowlist : List ℤ := baseNames.map Prod.snd

def deniedNames : List (String × ℤ) := [
  ("ptrace", 101), ("process_vm_readv", 310), ("process_vm_writev", 311), ("mount", 165),
  ("umount2", 166), ("pivot_root", 155), ("chroot", 161), ("unshare", 272), ("setns", 308),
  ("bpf", 321), ("perf_event_open", 298), ("userfaultfd", 323), ("keyctl", 250), ("add_key", 248),
  ("request_key", 249), ("init_module", 175), ("finit_module", 313), ("delete_module", 176),
  ("kexec_load", 246), ("reboot", 169), ("swapon", 167), ("swapoff", 168), ("setuid", 105),
  ("setgid", 106), ("ioperm", 173), ("iopl", 172), ("quotactl", 179), ("open_by_handle_at", 304),
  ("name_to_handle_at", 303), ("fsopen", 430), ("fsconfig", 431), ("fsmount", 432), ("fspick", 433),
  ("move_mount", 429), ("open_tree", 428), ("mount_setattr", 442), ("io_uring_setup", 425),
  ("io_uring_enter", 426), ("io_uring_register", 427), ("pidfd_getfd", 438), ("kcmp", 312),
  ("sethostname", 170), ("setdomainname", 171), ("setgroups", 116), ("setresuid", 117),
  ("setresgid", 119), ("setreuid", 113), ("setregid", 114), ("setfsuid", 122), ("setfsgid", 123),
  ("capset", 126), ("personality", 135)]

def denied : List ℤ := deniedNames.map Prod.snd

def addable : List (String × ℤ) := [
  ("acct", 163), ("adjtimex", 159), ("clock_adjtime", 305), ("clock_settime", 227),
  ("fanotify_init", 300), ("fanotify_mark", 301), ("inotify_init", 253), ("inotify_init1", 294),
  ("ioprio_set", 251), ("landlock_add_rule", 445), ("landlock_create_ruleset", 444),
  ("landlock_restrict_self", 446), ("mincore", 27), ("mlock2", 325), ("mlockall", 151),
  ("mq_getsetattr", 245), ("mq_notify", 244), ("mq_open", 240), ("mq_timedreceive", 243),
  ("mq_timedsend", 242), ("mq_unlink", 241), ("msgctl", 71), ("msgget", 68), ("msgrcv", 70),
  ("msgsnd", 69), ("munlockall", 152), ("process_madvise", 440), ("remap_file_pages", 216),
  ("rt_sigqueueinfo", 129), ("rt_tgsigqueueinfo", 297), ("sched_setattr", 314),
  ("sched_setparam", 142), ("sched_setscheduler", 144), ("seccomp", 317), ("semctl", 66),
  ("semget", 64), ("semop", 65), ("settimeofday", 164), ("shmat", 30), ("shmctl", 31),
  ("shmdt", 67), ("shmget", 29), ("syslog", 103), ("vhangup", 153)]

def names : List (String × ℤ) := deniedNames ++ (baseNames ++ addable)

def syscallByName (name : String) : Option ℤ :=
  (names.find? (fun e => e.1 == name)).map Prod.snd

def isDenied (nr : ℤ) : Bool := denied.contains nr

def sysClone : ℤ := 56
def sysClone3 : ℤ := 435
def sysIoctl : ℤ := 16
def sysSocket : ℤ := 41
def sysSocketpair : ℤ := 53

end Kryptik.Kryptikd.Seccomp
