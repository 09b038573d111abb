import Tr69HostIf.HostIf
import Tr69HostIf.Store.Run

/-!
# `XBSStore::getAuthServicePartnerID`

The thread that waits for `/opt/www/authService/partnerId3.dat` and reads the partner id whenever the file
is written. The thread runs beside whoever creates and writes the file, so it is modelled one system call at
a time: `Pc` is the call that comes next, `Action` one call of the thread or of the others. The kernel puts
an event for each watch into the queue and merges one that repeats the last; the thread reads any number of
them at once. Nothing under `/opt/www` is removed or renamed, the queue does not overflow, and `mkdir` and
`inotify_add_watch` do not fail. What the thread does with the partner id in the store is `partnerIdUpdated`.
-/

namespace Tr69HostIf.BS.AuthService
open Store

/-! ## Files and events -/

/-- How far `/opt/www/authService/partnerId3.dat` is there. -/
inductive Tree
  | opt | www | authService
  | file (content : Text)
  deriving DecidableEq

/-- `/opt/www` -/
def Tree.hasWWW : Tree → Bool
  | .opt => false
  | .www | .authService | .file _ => true

/-- `/opt/www/authService` -/
def Tree.hasAuthService : Tree → Bool
  | .opt | .www => false
  | .authService | .file _ => true

/-- `/opt/www/authService/partnerId3.dat` -/
def Tree.hasFile : Tree → Bool
  | .file _ => true
  | _ => false

/-- What the thread looks at in the file system. -/
structure Fs where
  tree : Tree
  /-- `/opt/secure/RFC/bootstrap.ini` -/
  bootstrap : Option Text
  /-- `BSP_COMPLETE` -/
  bspComplete : Bool
  /-- `AUTH_SERVICE_PARODUS_RESTART` -/
  parodusRestart : Bool
  deriving DecidableEq

/-- The key of the partner id in the bootstrap file. -/
def bootstrapKey : Text := "Device.DeviceInfo.X_RDKCENTRAL-COM_Syndication.PartnerId=".toList

/-- `hostIf_DeviceInfo::get_PartnerId_From_Script`, `none` for `NOK`. -/
def get_PartnerId_From_Script (fs : Fs) : Option Text :=
  match fs.tree with
  | .file t => some (getlines t).flatten
  | _ => fs.bootstrap.map fun t =>
      match (getlines t).find? (bootstrapKey.isPrefixOf ·) with
      | some l => l.drop bootstrapKey.length
      | none => []

/-- What a watch is put on. -/
inductive Watched
  | opt | www | authService | file
  deriving DecidableEq

/-- The masks of the events asked for. -/
inductive Mask
  | create (isDir : Bool)
  | closeWrite
  deriving DecidableEq

/-- `struct inotify_event`. -/
structure Event where
  wd : Watched
  mask : Mask
  name : Text
  deriving DecidableEq

def wwwName : Text := "www".toList
def authServiceName : Text := "authService".toList
def targetFile : Text := "partnerId3.dat".toList

/-- The events that matter. -/
def wwwMade : Event := ⟨.opt, .create true, wwwName⟩
def authServiceMade : Event := ⟨.www, .create true, authServiceName⟩
def fileMade : Event := ⟨.authService, .create false, targetFile⟩
def fileClosed (w : Watched) : Event := ⟨w, .closeWrite, if w = .file then [] else targetFile⟩

/-- The kernel drops an event that repeats the last one in the queue. -/
def post (e : Event) (q : List Event) : List Event := if q.getLast? = some e then q else q ++ [e]

@[simp] theorem mem_post {e x : Event} {q : List Event} : x ∈ post e q ↔ x ∈ q ∨ x = e := by
  unfold post
  split
  · next h =>
    refine ⟨Or.inl, fun hx => hx.elim id ?_⟩
    rintro rfl
    exact List.mem_of_getLast? h
  · simp

/-! ## The thread -/

/-- The next system call of the thread. `handle` goes on with the events that are left of the last `read`. -/
inductive Pc
  | watchOpt
  | statWww
  | statAuthService
  | statFile
  | watch (w : Watched) (rest : List Event)
  | wait
  | handle (batch : List Event)
  | statAgain (rest : List Event)
  | script
  deriving DecidableEq

/-- The events of the last `read` that are still to be handled. -/
def Pc.rest : Pc → List Event
  | .watch _ rest | .handle rest | .statAgain rest => rest
  | _ => []

structure State where
  fs : Fs
  watches : List Watched
  queue : List Event
  pc : Pc
  foundWWW : Bool
  foundAuthService : Bool
  partnerIdWatchAdded : Bool
  /-- what the script has returned so far -/
  reads : List (Option Text)
  deriving DecidableEq

/-- The thread is started. -/
def boot (fs : Fs) : State where
  fs := fs
  watches := []
  queue := []
  pc := .watchOpt
  foundWWW := false
  foundAuthService := false
  partnerIdWatchAdded := false
  reads := []

/-- One event in the loop over a `read`. -/
def handleEvent (e : Event) (rest : List Event) (s : State) : State :=
  if !s.foundWWW && e.mask == .create true then
    if e.name = wwwName then { s with foundWWW := true, pc := .statAgain rest }
    else { s with pc := .handle rest }
  else if s.foundWWW && !s.foundAuthService && e.mask == .create true then
    if e.name = authServiceName then { s with foundAuthService := true, pc := .watch .authService rest }
    else { s with pc := .handle rest }
  else if s.foundAuthService && !s.partnerIdWatchAdded && e.mask != .closeWrite then
    -- `break`: the rest of the `read` is dropped
    if e.name = targetFile then { s with partnerIdWatchAdded := true, pc := .script }
    else { s with pc := .handle rest }
  else if s.foundAuthService && s.partnerIdWatchAdded && e.mask == .closeWrite then { s with pc := .script }
  else { s with pc := .handle rest }

/-- The files that tell `parodus` of a partner id, `stored` being the one in the store. -/
def notifyParodus (stored : Text) (ret : Option Text) (fs : Fs) : Fs :=
  match ret with
  | none | some [] => fs
  | some id => { fs with parodusRestart := fs.parodusRestart || (id != stored && fs.bspComplete), bspComplete := true }

@[simp] theorem notifyParodus_tree (stored : Text) (ret : Option Text) (fs : Fs) :
    (notifyParodus stored ret fs).tree = fs.tree := by
  unfold notifyParodus
  split <;> rfl

/-- The next system call of the thread. `read` takes `k + 1` events, or all when there are fewer. -/
def callStep (k : ℕ) (stored : Text) (s : State) : State :=
  match s.pc with
  | .watchOpt => { s with watches := .opt :: s.watches, pc := .statWww }
  | .statWww => { s with foundWWW := s.fs.tree.hasWWW, pc := .statAuthService }
  | .statAuthService =>
      { s with
        foundAuthService := s.fs.tree.hasAuthService
        pc := if s.foundWWW && s.fs.tree.hasAuthService then .statFile else if s.foundWWW then .watch .www [] else .wait }
  | .statFile => { s with pc := .watch (if s.fs.tree.hasFile then .file else .authService) [] }
  | .watch w rest =>
      { s with
        watches := w :: s.watches
        partnerIdWatchAdded := s.partnerIdWatchAdded || w == .file
        fs := { s.fs with bspComplete := s.fs.bspComplete || w == .file }
        pc := .handle rest }
  | .wait =>
      if s.queue = [] then s
      else { s with pc := .handle (s.queue.take (k + 1)), queue := s.queue.drop (k + 1) }
  | .handle [] => { s with pc := .wait }
  | .handle (e :: rest) => handleEvent e rest s
  | .statAgain rest =>
      { s with
        foundAuthService := s.fs.tree.hasAuthService
        pc := .watch (if s.fs.tree.hasAuthService then .authService else .www) rest }
  | .script =>
      let ret := get_PartnerId_From_Script s.fs
      { s with reads := s.reads ++ [ret], fs := notifyParodus stored ret s.fs, pc := .wait }

/-! ## The others -/

/-- The event reaches the queue when there is a watch for it. -/
def notify (e : Event) (s : State) : State := if e.wd ∈ s.watches then { s with queue := post e s.queue } else s

/-- Events about other names: no watch on a directory above reports a close. -/
def Foreign (e : Event) : Prop :=
  e.name ∉ [wwwName, authServiceName, targetFile] ∧ e.wd ≠ .file ∧ (e.mask = .closeWrite → e.wd = .authService)

instance (e : Event) : Decidable (Foreign e) := inferInstanceAs (Decidable (_ ∧ _ ∧ _))

/-- One system call, of the thread or of the others. -/
inductive Action
  | mkdirWww
  | mkdirAuthService
  | create
  | write (t : Text)
  | close
  | foreign (e : Event)
  | bootstrap (t : Option Text)
  | call (k : ℕ) (stored : Text)

/-- A call that fails changes nothing. -/
def step (s : State) : Action → State
  | .mkdirWww =>
      match s.fs.tree with
      | .opt => notify wwwMade { s with fs := { s.fs with tree := .www } }
      | _ => s
  | .mkdirAuthService =>
      match s.fs.tree with
      | .www => notify authServiceMade { s with fs := { s.fs with tree := .authService } }
      | _ => s
  | .create =>
      match s.fs.tree with
      | .authService => notify fileMade { s with fs := { s.fs with tree := .file [] } }
      | _ => s
  | .write t =>
      match s.fs.tree with
      | .file _ => { s with fs := { s.fs with tree := .file t } }
      | _ => s
  | .close =>
      match s.fs.tree with
      | .file _ => notify (fileClosed .file) (notify (fileClosed .authService) s)
      | _ => s
  | .foreign e => if Foreign e then notify e s else s
  | .bootstrap t => { s with fs := { s.fs with bootstrap := t } }
  | .call k stored => callStep k stored s

/-- The events that the thread has still to handle. -/
def State.pending (s : State) : List Event := s.pc.rest ++ s.queue

/-- The thread is blocked in `read`, and there is nothing to read. -/
def Quiet (s : State) : Prop := s.pc = .wait ∧ s.queue = []

instance (s : State) : Decidable (Quiet s) := inferInstanceAs (Decidable (_ ∧ _))

/-- A close of the file will be noticed. -/
def Hearing (s : State) : Prop :=
  .file ∈ s.watches ∨ .authService ∈ s.watches ∧ (s.partnerIdWatchAdded = true ∨ fileMade ∈ s.pending)

instance (s : State) : Decidable (Hearing s) := inferInstanceAs (Decidable (_ ∨ _ ∧ _))

/-- The thread will check whether the file is there. -/
def CheckToCome (s : State) : Prop :=
  s.pc = .watchOpt ∨ s.pc = .statWww ∨ s.pc = .statAuthService ∧ s.foundWWW = true ∨ s.pc = .statFile

instance (s : State) : Decidable (CheckToCome s) := inferInstanceAs (Decidable (_ ∨ _ ∨ _ ∧ _ ∨ _))

/-- The calls before the loop. -/
def Pc.Starting : Pc → Prop
  | .watchOpt | .statWww | .statAuthService | .statFile | .watch .file _ => True
  | _ => False

instance Pc.decidableStarting : (pc : Pc) → Decidable pc.Starting
  | .watchOpt | .statWww | .statAuthService | .statFile | .watch .file _ => inferInstanceAs (Decidable True)
  | .watch .opt _ | .watch .www _ | .watch .authService _ | .wait | .handle _ | .statAgain _ | .script =>
      inferInstanceAs (Decidable False)

/-- The file is made when nothing watches its directory and no check of it is to come. -/
def Gap (s : State) (a : Action) : Prop :=
  a = .create ∧ s.fs.tree = .authService ∧ .authService ∉ s.watches ∧ ¬CheckToCome s

/-- The thread hears the file, or it will find it there. -/
def Listening (s : State) : Prop :=
  s.fs.tree.hasFile = true → CheckToCome s ∨ (∃ rest, s.pc = .watch .file rest) ∨ Hearing s

end Tr69HostIf.BS.AuthService
