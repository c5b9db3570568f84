import ApueCode.Posix.MessageQueue
import ApueCode.Transition.Machine

/-! The message-queue program: `main` sends the lines of its standard input to a queue that the thread `thr_func`
receives from and prints. `undefined` is reached by a read or a store beyond the end of a buffer. -/

namespace ApueCode.SvMsq

open Posix Transition

structure Platform where
  BUFSIZ : ℕ
  sizeofLong : ℕ
  room : sizeofLong + 2 ≤ BUFSIZ

def Platform.MSGMAXSZ (P : Platform) : ℕ := P.BUFSIZ - P.sizeofLong

inductive MainPc
  | fgets | msgsnd | msgctl | join | returned
  deriving DecidableEq

inductive ThrPc
  | malloc | msgrcv | blocked | printf | failed (errno : Errno) | rcvOver | ended
  deriving DecidableEq

inductive Status
  | running | mainReturned | mainExited | thrExited | undefined
  deriving DecidableEq

def Status.exitCode : Status → Option ℕ
  | .mainReturned => some 0
  | .mainExited | .thrExited => some 1
  | .running | .undefined => none

/-- `sent` records the texts of the successful `msgsnd` calls; the program itself does not read it.
`stdout` has one entry for each `printf("msgrcv: %s", ...)`, the string printed. -/
structure State (P : Platform) where
  stdin : List Byte
  text : Buffer P.MSGMAXSZ
  main : MainPc
  queue : MsgQueue
  sent : List (List Byte)
  rtext : Buffer P.MSGMAXSZ
  thr : ThrPc
  stdout : List (List Byte)
  stderr : List String
  status : Status

inductive MainAction
  | fgets | msgsnd | msgsndFail | msgctl | msgctlFail | join
  deriving DecidableEq

inductive ThrAction
  | malloc | mallocFail | msgrcv | msgrcvFail (code : ℕ) | wake | printf | errno | exit
  deriving DecidableEq

inductive Action
  | main (a : MainAction)
  | thr (a : ThrAction)
  deriving DecidableEq

variable {P : Platform}

def State.perror (s : State P) (msg : String) (status : Status) : State P :=
  { s with stderr := s.stderr ++ [msg], status := status }

def readLine (s : State P) : State P :=
  match Posix.fgets P.MSGMAXSZ s.stdin with
  | none => { s with main := .msgctl }
  | some (line, rest) =>
    match s.text.write (line ++ [NUL]) with
    | none => { s with status := .undefined }
    | some text => { s with stdin := rest, text := text, main := .msgsnd }

def sendText (s : State P) : Option (State P) :=
  match cstr s.text.bytes with
  | none => some { s with status := .undefined }
  | some t =>
    let m : Msg := ⟨1, s.text.bytes.take (t.length + 1)⟩
    if s.queue.fits m then
      some { s with queue := s.queue.push m, sent := s.sent ++ [t], main := .fgets }
    else none

def mainStep (s : State P) : MainAction → Option (State P)
  | .fgets => if s.main = .fgets then some (readLine s) else none
  | .msgsnd => if s.main = .msgsnd then sendText s else none
  | .msgsndFail => if s.main = .msgsnd then some (s.perror "msgsnd error" .mainExited) else none
  | .msgctl => if s.main = .msgctl then some { s with queue := s.queue.rmid, main := .join } else none
  | .msgctlFail =>
    if s.main = .msgctl then some (s.perror "msgctl(IPC_RMID) error" .mainExited) else none
  | .join =>
    if s.main = .join ∧ s.thr = .ended then some { s with main := .returned, status := .mainReturned }
    else none

def receive (s : State P) (gone : Errno) : State P :=
  match s.queue.msgrcv P.MSGMAXSZ gone with
  | .blocked => { s with thr := .blocked }
  | .error e => { s with thr := .failed e }
  | .message m rest =>
    match s.rtext.write m.text with
    | none => { s with status := .undefined }
    | some rtext => { s with queue := rest, rtext := rtext, thr := .printf }

def printText (s : State P) : State P :=
  match cstr s.rtext.bytes with
  | none => { s with status := .undefined }
  | some t => { s with stdout := s.stdout ++ [t], thr := .msgrcv }

def thrStep (s : State P) : ThrAction → Option (State P)
  | .malloc => if s.thr = .malloc then some { s with thr := .msgrcv } else none
  | .mallocFail => if s.thr = .malloc then some (s.perror "msgptr error" .thrExited) else none
  | .msgrcv => if s.thr = .msgrcv then some (receive s .EINVAL) else none
  | .wake =>
    if s.thr = .blocked ∧ (s.queue.removed = true ∨ s.queue.msgs ≠ []) then some (receive s .EIDRM)
    else none
  | .msgrcvFail code =>
    if (s.thr = .msgrcv ∨ s.thr = .blocked) ∧ s.queue.removed = false then
      some { s with thr := .failed (.other code) }
    else none
  | .printf => if s.thr = .printf then some (printText s) else none
  | .errno =>
    match s.thr with
    | .failed .EIDRM => some { s with stderr := s.stderr ++ ["msgrcv over\n"], thr := .rcvOver }
    | .failed _ => some (s.perror "msgrcv error" .thrExited)
    | _ => none
  | .exit => if s.thr = .rcvOver then some { s with thr := .ended } else none

def step (s : State P) (a : Action) : Option (State P) :=
  if s.status = .running then
    match a with
    | .main a => mainStep s a
    | .thr a => thrStep s a
  else none

def start (qbytes : ℕ) (input : List Byte) (text rtext : Buffer P.MSGMAXSZ) : State P where
  stdin := input
  text := text
  main := .fgets
  queue := .empty qbytes
  sent := []
  rtext := rtext
  thr := .malloc
  stdout := []
  stderr := []
  status := .running

def machine (P : Platform) (qbytes : ℕ) (input : List Byte) : Machine (State P) Action where
  init s := ∃ text rtext, s = start qbytes input text rtext
  step := step

def glibc : Platform := ⟨8192, 8, by decide⟩

end ApueCode.SvMsq
