import WarrenSdk.NativeHost.Cli
import WarrenSdk.NativeHost.InstallSafety

/-!
# A launch of the helper (`main.rs`)

A browser launches the helper with the caller on its command line, a user with a command. A browser
is served if the record beside the binary admits its caller, and the helper finds a home directory
and can start its runtime.
-/

namespace WarrenSdk.NativeHost
open Lib

/-- A process, with what it is told of itself. -/
structure Launch where
  pid : Nat
  args : List String
  exe : Except IoError Path
  temp : Path
  /-- Whether a home directory is set. -/
  home : Bool := true
  /-- Whether the asynchronous runtime can be built. -/
  runtime : Bool := true

inductive Outcome
  /-- From here on the messages of the browser are answered. -/
  | serving (caller : Caller)
  | refused (caller : Caller)
  | noRuntime
  | installed (report : InstallReport) (interactive : Bool)
  | uninstalled (report : UninstallReport)
  | status (installed : Bool) (browsers : List (Browser × Bool))
  | version
  | help
  | misused (message : String)

section
variable (S : SerdeJson) (channel : Channel) (p : Platform) (l : Launch)

/-- The platform is that of the user, if it can be told. -/
def Platform.current : HostProg Platform := if l.home then .done p else .fail .noHome

/-- The record beside the running binary. -/
def ownRecord : HostProg ExtraIds :=
  match l.exe with
  | .error _ => .done {}
  | .ok exe => do return ExtraIds.load S (← readFile (exe.dropLast ++ [ExtraIds.FILE_NAME]))

/-- The last steps of `run_host`, from the gate on. -/
def startHost (caller : Caller) : HostProg Outcome := do
  -- what is asked of the platform is where the engine keeps its state
  let _platform ← Platform.current p l
  return if l.runtime then .serving caller else .noRuntime

def runHost (caller : Caller) : HostProg Outcome := do
  let extra ← ownRecord S l
  if !(Allowlist.new channel extra).admits caller then return .refused caller
  else startHost p l caller

def runInstall (extra : ExtraIds) (interactive : Bool) : HostProg Outcome := do
  let p ← Platform.current p l
  match l.exe with
  | .error e => .fail (.io "locate" ["the running helper"] e)
  | .ok source => do return .installed (← install l.pid S channel p source extra) interactive

def runUninstall : HostProg Outcome := do
  let p ← Platform.current p l
  return .uninstalled (← uninstall l.pid p l.exe.toOption l.temp)

def runStatus : HostProg Outcome := do
  let p ← Platform.current p l
  return .status (← existsAt p.binaryPath) (← registrations p)

def main : HostProg Outcome :=
  match parse l.args with
  | .ok (.host caller) => runHost S channel p l caller
  | .ok (.install extra interactive) => runInstall S channel p l extra interactive
  | .ok .uninstall => runUninstall p l
  | .ok .status => runStatus p l
  | .ok .version => .done .version
  | .ok .help => .done .help
  | .error message => .done (.misused message)

end

/-- The launch can go on where its caller is let through. -/
structure Launch.Starts (l : Launch) : Prop where
  home : l.home = true
  runtime : l.runtime = true

/-- The launch is an install of the running binary. -/
structure Launch.Installs (l : Launch) (source : Path) (extra : ExtraIds) (interactive : Bool) :
    Prop where
  args : parse l.args = .ok (.install extra interactive)
  exe : l.exe = .ok source

/-! ## What a launch may do -/

namespace Neighbours
variable {p : Platform} {l : Launch} {N : Neighbours p l.pid} {faulty : FileOp → Prop} {s : Machine}
  {S : SerdeJson} {channel : Channel} {touched : Path → Prop}

/-- The caller that is served is one of the channel, or in the record beside the binary. -/
def Serves (N : Neighbours p l.pid) (faulty : FileOp → Prop) (S : SerdeJson) (channel : Channel)
    (s : Machine) (caller : Caller) : Prop :=
  (bakedIds channel).toExtra.names caller ∨ ∃ exe, l.exe = .ok exe ∧ ∃ u r, N.I u ∧ N.R s u ∧
    ReadOf faulty (exe.dropLast ++ [ExtraIds.FILE_NAME]) u r ∧ (ExtraIds.load S r).names caller

theorem runs_current (hI : N.I s) :
    N.Runs faulty touched (fun q _ => p = q) (Platform.current p l) s := by
  unfold Platform.current
  split
  · exact .pure hI fun _ _ => rfl
  · exact .fail hI

theorem runs_startHost (caller : Caller) (hI : N.I s) :
    N.Runs faulty touched (fun out _ => ∀ caller', out = .serving caller' → caller' = caller)
      (startHost p l caller) s := by
  refine (runs_current hI).bind fun _ s hI _ _ => .pure hI fun t _ caller' hout => ?_
  split at hout
  · cases hout
    rfl
  · cases hout

theorem runs_runHost (caller : Caller) (hI : N.I s) :
    N.Runs faulty touched (fun out _ => ∀ caller, out = .serving caller →
      Serves N faulty S channel s caller) (runHost S channel p l caller) s := by
  have hserves {extra : ExtraIds} {u : Machine} (hIu : N.I u)
      (h : extra.names caller → Serves N faulty S channel s caller) :
      N.Runs faulty touched (fun out _ => ∀ caller, out = .serving caller →
        Serves N faulty S channel s caller)
        (if !(Allowlist.new channel extra).admits caller then .done (.refused caller)
          else startHost p l caller) u := by
    split
    · exact .pure hIu fun _ _ _ hout => by cases hout
    · next hadmits =>
      have hnamed := admits_new.mp (by simpa using hadmits)
      refine (runs_startHost caller hIu).mono (fun _ => id) fun out t _ _ hout caller' heq => ?_
      rw [hout caller' heq]
      exact hnamed.elim .inl h
  unfold runHost ownRecord
  split
  · refine hserves hI fun hnamed => ?_
    cases caller with
    | chromium | firefox => exact absurd hnamed List.not_mem_nil
  · next exe hexe =>
    have hread : N.Runs faulty touched _ (readFile (exe.dropLast ++ [ExtraIds.FILE_NAME])) s :=
      runs_readFile _ hI
    refine hread.bind fun r u hIu _ ⟨v, hIv, hv, hr⟩ => hserves hIu fun hnamed => ?_
    exact .inr ⟨exe, hexe, v, r, hIv, hv, hr, hnamed⟩

theorem runs_isRegistered (b : Browser) (hI : N.I s) :
    N.Runs faulty touched (fun _ _ => True) (isRegistered p b) s := by
  refine (runs_existsAt (b.manifestFile p) hI).bind fun there s hI _ _ => ?_
  split
  · split
    · exact .pure hI fun _ _ => trivial
    · apply runs_ask hI
      · rintro t u ⟨-, hu⟩
        exact hu
      · rintro t r u ht hIt ⟨-, hu⟩
        exact ⟨hu, .pure (N.leaves_inv hIt (leaves_of_eq hu)) fun _ _ => trivial⟩
  · exact .pure hI fun _ _ => trivial

theorem runs_registrations (hI : N.I s) :
    N.Runs faulty touched (fun _ _ => True) (registrations p) s :=
  Setting.Runs.foldM (J := fun _ _ _ => True) hI (fun _ _ _ _ _ => id) trivial fun _ b _ _ hI _ =>
    (runs_isRegistered b hI).bind fun _ _ hI _ _ => .pure hI fun _ _ => trivial

/-- What a launch may do. -/
structure Launching (N : Neighbours p l.pid) (faulty : FileOp → Prop) (S : SerdeJson)
    (channel : Channel) : Prop where
  install {source : Path} {extra : ExtraIds} {interactive : Bool} :
    l.Installs source extra interactive → Recording N faulty S source extra
  manifest {source : Path} {extra : ExtraIds} {interactive : Bool} :
    l.Installs source extra interactive → extra.Valid → ∀ s, N.I s → ∀ r,
    ReadOf faulty p.extraIdsPath s r → ∀ b ∈ browsers p,
    N.good (b.manifestFile p) (manifestBody channel p b.family (recordOver S extra r))
  uninstall : parse l.args = .ok .uninstall → ∀ path, Removed p path → N.removes path

theorem runs_main (hI : N.I s) (h : Launching N faulty S channel) :
    N.Runs faulty (fun _ => True) (fun out _ => ∀ caller, out = .serving caller →
      Serves N faulty S channel s caller) (main S channel p l) s := by
  unfold main
  split
  · exact runs_runHost _ hI
  · next extra interactive hargs =>
    refine (runs_current hI).bind ?_
    rintro _ u hI _ rfl
    split
    · exact .fail hI
    · next source hexe =>
      have hinstalls : l.Installs source extra interactive := ⟨hargs, hexe⟩
      exact (runs_install hI (h.install hinstalls) (h.manifest hinstalls)).bind
        fun _ t hI _ _ => .pure hI fun _ _ _ => nofun
  · next hargs =>
    refine (runs_current hI).bind ?_
    rintro _ u hI _ rfl
    refine ((runs_uninstall _ l.temp hI (h.uninstall hargs)).mono (fun _ _ => trivial)
      fun _ _ _ _ => id).bind fun _ t hI _ _ => .pure hI fun _ _ _ => nofun
  · refine (runs_current hI).bind ?_
    rintro _ u hI _ rfl
    refine (runs_existsAt p.binaryPath hI).bind fun there s hI _ _ => ?_
    exact (runs_registrations hI).bind fun _ s hI _ _ => .pure hI fun _ _ _ => nofun
  · exact .pure hI fun _ _ _ => nofun
  · exact .pure hI fun _ _ _ => nofun
  · exact .pure hI fun _ _ _ => nofun

end Neighbours

/-! ## A sample -/

def samplePlatform : Platform := { os := .linux, home := ["home"] }

def sampleProfile : Path := ["home", ".config", "google-chrome"]

def sampleChrome : Browser where
  name := "Chrome"
  family := .chromium
  profile := sampleProfile
  registration := .directory (sampleProfile ++ ["NativeMessagingHosts"])

/-- A machine with a helper at its place, and one browser. -/
def sampleHome : Machine :=
  (((Disk.empty.grow samplePlatform.helperDir).insert samplePlatform.helperDir "warren-host"
    (.file [1]) (by decide) (by decide)).grow sampleProfile, fun _ => none)

def SAMPLE_OTHER_ID : String := "abcdefghijklmnopabcdefghijklmnop"

end WarrenSdk.NativeHost
