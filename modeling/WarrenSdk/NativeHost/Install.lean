import WarrenSdk.NativeHost.Platform

/-!
# Installing and uninstalling (`install.rs`)

An install copies the running binary beside its own place, and renames it over it; the record and
the manifests are written likewise. The name beside a file carries the id of the process. The
registry is that of Windows; links between files are not modelled, so a path is its own canonical
form.
-/

namespace WarrenSdk.NativeHost
open Lib

inductive InstallError
  | noHome
  | io (action : String) (path : Path) (source : IoError)
  | registry (key : String) (source : IoError)
  | badId (id : String)

/-- What is called of the system beside its files. -/
inductive SystemOp
  | setPermissions (path : Path)
  | clearDownloadMarks (path : Path)
  | setDefault (key : String) (value : Path)
  | deleteKey (key : String)
  | keyExists (key : String)

def SystemOp.Ret : SystemOp → Type
  | .setPermissions _ | .setDefault _ _ => Except IoError Unit
  | .clearDownloadMarks _ | .deleteKey _ => Unit
  | .keyExists _ => Bool

/-- The manifests that the keys under `HKCU` point at. -/
abbrev Registry := String → Option Path

/-- What the registry is asked for may fail. A key that is deleted does not tell whether it was. -/
def systemEffects : Effects Registry SystemOp SystemOp.Ret where
  returns
    | .setPermissions _, s, _, t => t = s
    | .clearDownloadMarks _, s, _, t => t = s
    | .setDefault key value, s, r, t => r = .ok () ∧ t = Function.update s key (some value) ∨
      (∃ e, r = .error e) ∧ t = s
    | .deleteKey key, s, _, t => t = Function.update s key none ∨ t = s
    | .keyExists key, s, r, t => t = s ∧ (r = (s key).isSome ∨ r = false)
  stops
    | .setDefault key value, s, t => t = s ∨ t = Function.update s key (some value)
    | .deleteKey key, s, t => t = s ∨ t = Function.update s key none
    | _, s, t => t = s

/-- The machine of a user. -/
abbrev Machine := Disk × Registry

abbrev HostOp := FileOp ⊕ SystemOp
abbrev HostRet : HostOp → Type := Sum.elim FileOp.Ret SystemOp.Ret

def hostEffects (faulty : FileOp → Prop) : Effects Machine HostOp HostRet :=
  (fileEffects faulty).sum systemEffects

/-- Operations that do not fail. -/
def systemRunner : Runner systemEffects where
  perform
    | .setPermissions _, s => some (.ok (), s)
    | .clearDownloadMarks _, s => some ((), s)
    | .setDefault key value, s => some (.ok (), Function.update s key (some value))
    | .deleteKey key, s => some ((), Function.update s key none)
    | .keyExists key, s => some ((s key).isSome, s)
  sound {op s t r} h := by
    cases op with
    | setPermissions path | clearDownloadMarks path =>
      cases h
      rfl
    | setDefault key value =>
      cases h
      exact .inl ⟨rfl, rfl⟩
    | deleteKey key =>
      cases h
      exact .inl rfl
    | keyExists key =>
      cases h
      exact ⟨rfl, .inl rfl⟩

def hostRunner (faulty : FileOp → Prop) : Runner (hostEffects faulty) :=
  (fileRunner faulty).sum systemRunner

abbrev HostProg (α : Type) := Prog HostOp HostRet InstallError α

/-! ## Operations -/

def change (action : String) (path : Path) (c : Change) : HostProg Unit :=
  .call (Sum.inl (.change c)) fun (r : Except IoError Unit) =>
    match r with
    | .ok _ => .done ()
    | .error e => .fail (.io action path e)

/-- A change whose failure is ignored. -/
def tryChange (c : Change) : HostProg Unit := .call (Sum.inl (.change c)) fun _ => .done ()

def readFile (path : Path) : HostProg (Option Bytes) :=
  .call (Sum.inl (.read path)) fun (r : Option Bytes) => .done r

def existsAt (path : Path) : HostProg Bool :=
  .call (Sum.inl (.existsAt path)) fun (r : Bool) => .done r

def list (path : Path) : HostProg (Option (List (String × Option Nat))) :=
  .call (Sum.inl (.list path)) fun (r : Option (List (String × Option Nat))) => .done r

def setPermissions (path : Path) : HostProg Unit :=
  .call (Sum.inr (.setPermissions path)) fun (r : Except IoError Unit) =>
    match r with
    | .ok _ => .done ()
    | .error e => .fail (.io "set permissions on" path e)

def clearDownloadMarks (path : Path) : HostProg Unit :=
  .call (Sum.inr (.clearDownloadMarks path)) fun _ => .done ()

def setDefault (key : String) (value : Path) : HostProg Unit :=
  .call (Sum.inr (.setDefault key value)) fun (r : Except IoError Unit) =>
    match r with
    | .ok _ => .done ()
    | .error e => .fail (.registry key e)

def deleteKey (key : String) : HostProg Unit := .call (Sum.inr (.deleteKey key)) fun _ => .done ()

def keyExists (key : String) : HostProg Bool :=
  .call (Sum.inr (.keyExists key)) fun (r : Bool) => .done r

/-! ## Placing files -/

def PARKED_START : String := "warren-host-uninstalled-"

def PARKED_END : String := ".exe"

section
-- the id of the process
variable (pid : Nat)

def sibling (path : Path) (tag : String) : Path :=
  path.dropLast ++ ["." ++ path.getLastD "" ++ "." ++ tag ++ "-" ++ toString pid]

def writeFile (path : Path) (body : Bytes) : HostProg Unit := do
  change "create" path.dropLast (.createDirAll path.dropLast)
  let tmp := sibling pid path "tmp"
  change "write" tmp (.write tmp body)
  change "write" path (.rename tmp path)

def sameFile (a b : Path) : HostProg Bool := do
  if !(← existsAt a) then return false
  if !(← existsAt b) then return false
  return decide (a = b)

def stageCopy (os : Os) (source tmp : Path) : HostProg Unit := do
  change "copy the helper to" tmp (.copy source tmp)
  if os ≠ .windows then setPermissions tmp

/-- The infix of a name. -/
def containsText (part name : String) : Bool := part.toList <:+: name.toList

/-- Whether a file is left over from an update, or from an install that was interrupted. -/
def isLeftover (name : String) (age : Option Nat) : Bool :=
  name.toList.head? = some '.' &&
    (containsText ".old-" name ||
      (containsText ".new-" name || containsText ".tmp-" name) && age.any (600 < ·))

def sweepLeftovers (dir : Path) : HostProg Unit := do
  match ← list dir with
  | none => return ()
  | some entries =>
    Prog.foldM (fun () (entry : String × Option Nat) =>
      if isLeftover entry.1 entry.2 then tryChange (.removeFile (dir ++ [entry.1]))
      else return ()) () entries

/-- The failure of an install, without what it staged. -/
def giveUp (tmp : Path) (e : InstallError) : HostProg Unit := do
  tryChange (.removeFile tmp)
  .fail e

/-- A running executable cannot be replaced on Windows, but it can be renamed. -/
def movesAside (os : Os) (target : Path) : HostProg Bool :=
  if os = .windows then existsAt target else .done false

def moveAside (there : Bool) (target aside : Path) : HostProg (Except InstallError Unit) :=
  if there then (change "move aside" target (.rename target aside)).attempt else .done (.ok ())

def moveBack (there : Bool) (target aside : Path) : HostProg Unit :=
  if there then tryChange (.rename aside target) else .done ()

/-- The last steps of `place_binary`, from what was staged in `tmp` on. -/
def swapIn (os : Os) (target tmp : Path) : HostProg Unit := do
  let aside := sibling pid target "old"
  let there ← movesAside os target
  match ← moveAside there target aside with
  | .error e => giveUp tmp e
  | .ok _ =>
    match ← (change "install" target (.rename tmp target)).attempt with
    | .error e =>
      tryChange (.removeFile tmp)
      moveBack there target aside
      .fail e
    | .ok _ =>
      clearDownloadMarks target
      sweepLeftovers target.dropLast

def placeBinary (os : Os) (source target : Path) : HostProg Unit := do
  if ← sameFile source target then return ()
  else
    change "create" target.dropLast (.createDirAll target.dropLast)
    let tmp := sibling pid target "new"
    match ← (stageCopy os source tmp).attempt with
    | .error e => giveUp tmp e
    | .ok _ => swapIn pid os target tmp

/-! ## The two commands -/

def validateIds (extra : ExtraIds) : Except InstallError Unit :=
  match extra.extensionIds.find? (!isChromiumId ·) with
  | some bad => .error (.badId bad)
  | none =>
    match extra.geckoIds.find? (!isGeckoId ·) with
    | some bad => .error (.badId bad)
    | none => .ok ()

/-- Those that have been used, or all if none has. -/
def selectBrowsers (all : List Browser) : HostProg (List Browser × Bool) := do
  let found ← Prog.foldM (fun found (b : Browser) => do
    return if ← existsAt b.profile then found ++ [b] else found) [] all
  return if found = [] then (all, false) else (found, true)

structure InstallReport where
  binary : Path
  browsers : List String
  /-- Whether the browsers were found. -/
  detected : Bool

section
variable (S : SerdeJson) (channel : Channel) (p : Platform)

def manifestBody (family : Family) (record : ExtraIds) : Bytes :=
  toVecPretty (manifest family (p.text p.binaryPath) (.new channel record))

def register (record : ExtraIds) (b : Browser) : HostProg Unit := do
  writeFile pid (b.manifestFile p) (manifestBody channel p b.family record)
  match b.registration with
  | .registryKey key => setDefault key (b.manifestFile p)
  | .directory _ => return ()

/-- The first steps of `install`, up to the record. -/
def placeAndRecord (source : Path) (extra : ExtraIds) : HostProg ExtraIds := do
  Prog.ofExcept (validateIds extra)
  placeBinary pid p.os source p.binaryPath
  let record := (ExtraIds.load S (← readFile p.extraIdsPath)).merged extra
  writeFile pid p.extraIdsPath (toVecPretty record.toJson)
  return record

def registerAll (record : ExtraIds) : HostProg InstallReport := do
  let (targets, detected) ← selectBrowsers (browsers p)
  Prog.foldM (fun () b => register pid channel p record b) () targets
  return { binary := p.binaryPath, browsers := displayNames targets, detected }

def install (source : Path) (extra : ExtraIds) : HostProg InstallReport := do
  registerAll pid channel p (← placeAndRecord pid S p source extra)

end

structure UninstallReport where
  removed : List Path := []
  left : List Path := []

/-- The removal of what is there, with its place in the report. -/
def removeReported (report : UninstallReport) (path : Path) (c : Change) :
    HostProg UninstallReport := do
  if ← existsAt path then
    match ← (change "remove" path c).attempt with
    | .ok _ => return { report with removed := report.removed ++ [path] }
    | .error _ => return { report with left := report.left ++ [path] }
  else return report

def parkedName : String := PARKED_START ++ toString pid ++ PARKED_END

/-- `exe` is the running binary, if it can be told. -/
def moveOutRunningBinary (os : Os) (exe : Option Path) (temp dir : Path) : HostProg Unit := do
  match exe with
  | none => return ()
  | some exe =>
    if os ≠ .windows then return ()
    else if (← existsAt exe) && (← existsAt dir) && dir <+: exe then
      tryChange (.rename exe (temp ++ [parkedName pid]))
    else return ()

def unregister (b : Browser) : HostProg Unit :=
  match b.registration with
  | .registryKey key => deleteKey key
  | .directory _ => .done ()

def removeManifests (p : Platform) : HostProg UninstallReport :=
  Prog.foldM (fun report (b : Browser) => do
    unregister b
    let file := b.manifestFile p
    removeReported report file (.removeFile file)) {} (browsers p)

def removeHelper (p : Platform) (exe : Option Path) (temp : Path) (report : UninstallReport) :
    HostProg UninstallReport := do
  moveOutRunningBinary pid p.os exe temp p.helperDir
  removeReported report p.helperDir (.removeDirAll p.helperDir)

def uninstall (p : Platform) (exe : Option Path) (temp : Path) : HostProg UninstallReport := do
  removeHelper pid p exe temp (← removeManifests p)

end

def isRegistered (p : Platform) (b : Browser) : HostProg Bool := do
  if ← existsAt (b.manifestFile p) then
    match b.registration with
    | .directory _ => return true
    | .registryKey key => keyExists key
  else return false

def registrations (p : Platform) : HostProg (List (Browser × Bool)) :=
  Prog.foldM (fun found (b : Browser) => do return found ++ [(b, ← isRegistered p b)]) []
    (browsers p)

end WarrenSdk.NativeHost
