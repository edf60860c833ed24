import WarrenSdk.NativeHost.Main

/-!
# Launches side by side

Any number of launches run at once over the files of a user, and each of them may fail, or be
stopped, anywhere. Every file that they share is whole all the time (`whole_together`), and nobody
is served whom no install was asked for (`serves_together`).
-/

namespace WarrenSdk.NativeHost
open Lib

section
variable {ι : Type} (ls : ι → Launch) (S : SerdeJson) (channel : Channel) (p : Platform)
  (s : Machine)

/-- The caller was in the record before, or an install was asked for it. -/
def Asked (caller : Caller) : Prop :=
  (ExtraIds.load S (s.1.readFile p.extraIdsPath)).names caller ∨
  ∃ i source extra interactive, (ls i).Installs source extra interactive ∧ extra.names caller

/-- A record of nobody but those that were asked for. -/
structure Genuine (ids : ExtraIds) : Prop where
  valid : ids.Valid
  asked {caller : Caller} : ids.names caller → Asked ls S p s caller

/-- The binary that was there, or that of an install. -/
def Image (body : Bytes) : Prop :=
  s.1.readFile p.binaryPath = some body ∨
  ∃ i source extra interactive, (ls i).Installs source extra interactive ∧
    s.1.readFile source = some body

/-- What a launch may put at a shared path. -/
structure Good (path : Path) (body : Bytes) : Prop where
  image : path = p.binaryPath → Image ls p s body
  record : path = p.extraIdsPath → ∃ ids, Genuine ls S p s ids ∧ body = toVecPretty ids.toJson
  manifest {b : Browser} : b ∈ browsers p → path = b.manifestFile p →
    ∃ ids, Genuine ls S p s ids ∧ body = manifestBody channel p b.family ids

/-- What any of the launches owns. -/
def OwnedByOne (path : Path) : Prop := ∃ i, Owned (ls i).pid path

/-- No two processes have one id, and what is installed is a file that none of them writes. -/
structure Apart : Prop where
  pid {i j : ι} : (ls i).pid = (ls j).pid → i = j
  source {i : ι} {source : Path} {extra : ExtraIds} {interactive : Bool} :
    (ls i).Installs source extra interactive →
    source = p.binaryPath ∨ ¬ p.Shared source ∧ ¬ OwnedByOne ls source

end

variable {ι : Type} {ls : ι → Launch} {S : SerdeJson} {channel : Channel} {p : Platform}
  {s t : Machine} {faulty : FileOp → Prop}

theorem Platform.Shared.not_ownedByOne (h : p.Shared path) : ¬ OwnedByOne ls path := by
  rintro ⟨i, howned⟩
  exact h.not_owned _ howned

/-- The other launches, as one of them sees them. -/
def Apart.besides (h : Apart ls p) (S : SerdeJson) (channel : Channel) (s : Machine) (i : ι) :
    Neighbours p (ls i).pid where
  R := Leaves p (fun path => ∃ j, j ≠ i ∧ Owned (ls j).pid path) (Good ls S channel p s) (Removed p)
  I := Leaves p (OwnedByOne ls) (Good ls S channel p s) (Removed p) s
  good := Good ls S channel p s
  removes := Removed p
  kept _ := False
  preorder := Leaves.isPreorder ..
  rely_inv hR hI := by
    refine (Leaves.isPreorder ..).trans _ _ _ hI (hR.mono ?_)
    rintro path ⟨j, -, howned⟩
    exact ⟨j, howned⟩
  leaves_inv hI hG := (Leaves.isPreorder ..).trans _ _ _ hI (hG.mono fun _ howned => ⟨i, howned⟩)
  own := by
    intro path body s t hR howned hbody
    have hnone : ¬ ∃ j, j ≠ i ∧ Owned (ls j).pid path := by
      rintro ⟨j, hne, hj⟩
      exact hne (h.pid (hj.pid_eq howned))
    rcases hR path hnone with heq | ⟨body', hshared, -⟩ | ⟨-, hgone⟩
    · rwa [← heq]
    · exact absurd howned (hshared.not_owned _)
    · rw [hgone] at hbody
      cases hbody
  kept_eq _ := False.elim
  kept_not_owned := False.elim

/-! ## What the launches read of each other -/

section
variable {u : Machine}
  (hu : Leaves p (OwnedByOne ls) (Good ls S channel p s) (Removed p) s u)
include hu

theorem image_of_binary (hb : u.1.readFile p.binaryPath = some body) : Image ls p s body := by
  rcases hu _ Platform.Shared.binary.not_ownedByOne
    with heq | ⟨body', -, hgood, hbody'⟩ | ⟨-, hnone⟩
  · exact .inl (heq ▸ hb)
  · obtain rfl : body' = body := Option.some.inj (hbody'.symm.trans hb)
    exact hgood.image rfl
  · rw [hnone] at hb
    cases hb

theorem image_of_source (h : Apart ls p) (hinstalls : (ls i).Installs source extra interactive)
    (hb : u.1.readFile source = some body) : Image ls p s body := by
  rcases h.source hinstalls with rfl | ⟨hshared, howned⟩
  · exact image_of_binary hu hb
  · rcases hu source howned with heq | ⟨-, hshared', -⟩ | ⟨-, hnone⟩
    · exact .inr ⟨i, source, extra, interactive, hinstalls, heq ▸ hb⟩
    · exact absurd hshared' hshared
    · rw [hnone] at hb
      cases hb

theorem genuine_load (hr : ReadOf faulty p.extraIdsPath u r) :
    Genuine ls S p s (ExtraIds.load S r) := by
  refine ⟨ExtraIds.valid_load .., ?_⟩
  have hnobody {caller : Caller} (hnamed : (ExtraIds.load S none).names caller) : False := by
    cases caller with
    | chromium | firefox => exact List.not_mem_nil hnamed
  rcases hr with rfl | ⟨-, rfl⟩
  · intro caller hnamed
    rcases hu _ Platform.Shared.record.not_ownedByOne
      with heq | ⟨body, -, hgood, hbody⟩ | ⟨-, hnone⟩
    · exact .inl (heq ▸ hnamed)
    · obtain ⟨ids, hids, rfl⟩ := hgood.record rfl
      rw [hbody, ExtraIds.load_toVecPretty S hids.valid] at hnamed
      exact hids.asked hnamed
    · rw [hnone] at hnamed
      exact (hnobody hnamed).elim
  · exact fun _ hnamed => (hnobody hnamed).elim

theorem genuine_recordOver (hinstalls : (ls i).Installs source extra interactive)
    (hvalid : extra.Valid) (hr : ReadOf faulty p.extraIdsPath u r) :
    Genuine ls S p s (recordOver S extra r) := by
  have hload : Genuine ls S p s (ExtraIds.load S r) := genuine_load hu hr
  refine ⟨hload.valid.merged hvalid, fun {caller} hnamed => ?_⟩
  rcases ExtraIds.names_merged.mp hnamed with hnamed | hnamed
  · exact hload.asked hnamed
  · exact .inr ⟨i, source, extra, interactive, hinstalls, hnamed⟩

end

theorem good_binary (h : Image ls p s body) : Good ls S channel p s p.binaryPath body where
  image _ := h
  record heq := absurd heq.symm (record_ne_binary p)
  manifest _ heq := absurd heq.symm (manifestFile_ne_binary _ p)

theorem good_record (h : Genuine ls S p s ids) :
    Good ls S channel p s p.extraIdsPath (toVecPretty ids.toJson) where
  image heq := absurd heq (record_ne_binary p)
  record _ := ⟨ids, h, rfl⟩
  manifest _ heq := absurd heq.symm (manifestFile_ne_record _ p)

theorem good_manifest {b : Browser} (hb : b ∈ browsers p) (h : Genuine ls S p s ids) :
    Good ls S channel p s (b.manifestFile p) (manifestBody channel p b.family ids) where
  image heq := absurd heq (manifestFile_ne_binary _ p)
  record heq := absurd heq (manifestFile_ne_record _ p)
  manifest hb' heq := ⟨ids, h, by rw [family_of_manifestFile hb hb' heq]⟩

theorem Apart.launching (h : Apart ls p) (i : ι) :
    Neighbours.Launching (h.besides S channel s i) faulty S channel where
  install hinstalls := {
    images u hu body hbody := good_binary
      (hbody.elim (image_of_source hu h hinstalls) (image_of_binary hu))
    aside _ := .inr (List.prefix_append ..)
    swept := by
      rintro _ ⟨name, -, -, rfl⟩
      exact .inr (List.prefix_append ..)
    record hvalid u hu r hr := good_record (genuine_recordOver hu hinstalls hvalid hr) }
  manifest hinstalls hvalid u hu r hr b hb :=
    good_manifest hb (genuine_recordOver hu hinstalls hvalid hr)
  uninstall _ _ hpath := hpath

/-! ## Runs -/

section
variable [DecidableEq ι] {qs : ι → Option (HostProg Outcome)}

theorem Apart.reaches (h : Apart ls p)
    (hr : Reaches (hostEffects faulty) (fun i => some (main S channel p (ls i))) s qs t) :
    AllSafe (hostEffects faulty) (fun i => (h.besides S channel s i).R)
      (fun i => Leaves p (Owned (ls i).pid) (Good ls S channel p s) (Removed p))
      (fun i out _ => ∀ caller, out = .ok (.serving caller) →
        Neighbours.Serves (h.besides S channel s i) faulty S channel s caller) qs t ∧
    Leaves p (OwnedByOne ls) (Good ls S channel p s) (Removed p) s t := by
  refine Reaches.safe (fun i => (h.besides S channel s i).preorder) ?_ (Leaves.isPreorder ..)
    ?_ ?_ hr
  · exact fun i j _ _ hne hG => hG.mono fun _ howned => ⟨i, hne, howned⟩
  · exact fun i _ _ hG => hG.mono fun _ howned => ⟨i, howned⟩
  · rintro i _ ⟨⟩
    have hmain : (h.besides S channel s i).Runs faulty (fun _ => True)
        (fun out _ => ∀ caller, out = .serving caller →
          Neighbours.Serves (h.besides S channel s i) faulty S channel s caller)
        (main S channel p (ls i)) s :=
      Neighbours.runs_main ((Leaves.isPreorder ..).refl s) (h.launching i)
    refine Safe.mono ?_ hmain
    rintro out t ⟨-, -, hC⟩ caller rfl
    exact hC _ rfl caller rfl

/-- Whatever the launches do at once, a shared file holds what it held, or nothing, or a whole new
body: a binary that was installed, or a record or manifest of those that were asked for. -/
theorem whole_together (h : Apart ls p)
    (hr : Reaches (hostEffects faulty) (fun i => some (main S channel p (ls i))) s qs t)
    {path : Path}
    (hpath : p.Shared path) : t.1.readFile path = s.1.readFile path ∨ t.1.readFile path = none ∨
      ∃ body, t.1.readFile path = some body ∧ Good ls S channel p s path body := by
  rcases (h.reaches hr).2 path hpath.not_ownedByOne with heq | ⟨body, -, hgood, hbody⟩ | ⟨-, hnone⟩
  · exact .inl heq
  · exact .inr (.inr ⟨body, hbody, hgood⟩)
  · exact .inr (.inl hnone)

/-- A browser that launches the helper, two installs and an uninstall. -/
inductive SampleProcess
  | browser
  | first
  | second
  | removal
deriving DecidableEq

def SAMPLE_GECKO_ID : String := "vpn@example.org"

def sampleLaunches : SampleProcess → Launch
  | .browser => {
      pid := 1
      args := [Allowlist.origin SAMPLE_OTHER_ID]
      exe := .ok samplePlatform.binaryPath
      temp := ["tmp"] }
  | .first => {
      pid := 2
      args := ["install", "--extension-id", SAMPLE_OTHER_ID]
      exe := .ok samplePlatform.binaryPath
      temp := ["tmp"] }
  | .second => {
      pid := 3
      args := ["install", "--gecko-id", SAMPLE_GECKO_ID]
      exe := .ok ["tmp", "installer"]
      temp := ["tmp"] }
  | .removal => {
      pid := 4
      args := ["uninstall"]
      exe := .ok samplePlatform.binaryPath
      temp := ["tmp"] }

/-- A helper at its place, a newer one that was downloaded, and one browser. -/
def sampleMachine : Machine :=
  ((sampleHome.1.grow ["tmp"]).insert ["tmp"] "installer" (.file [2]) (by decide) (by decide),
    fun _ => none)

theorem sampleLaunches_apart : Apart sampleLaunches samplePlatform where
  pid {i j} h := by
    cases i <;> cases j <;> first | rfl | exact absurd h (by decide)
  source {i source extra interactive} h := by
    cases i with
    | browser | first | removal => exact .inl (Except.ok.inj h.exe).symm
    | second =>
      obtain rfl : ["tmp", "installer"] = source := Except.ok.inj h.exe
      right
      constructor
      · intro hshared
        obtain ⟨dir, name, heq, hname⟩ := hshared.eq
        have heq : ["tmp"] ++ ["installer"] = dir ++ [name] := heq
        obtain rfl := (List.append_singleton_inj.mp heq).2
        exact absurd hname (by decide)
      · rintro ⟨j, howned⟩
        have hnot (pid : Nat) : ¬ Owned pid (["tmp"] ++ ["installer"]) :=
          not_owned_of_name (by decide) (by decide) pid
        exact hnot _ howned

def samplePrograms (i : SampleProcess) : Option (HostProg Outcome) :=
  some (main sampleSerdeJson .beta samplePlatform (sampleLaunches i))

/-- Both installs read the record before one of them writes it. The browser calls between the two
writes. The uninstall removes the manifest of the first install before the second writes its own. -/
def sampleOrder : List SampleProcess :=
  .replicate 5 .first ++ .replicate 11 .second ++ [.first, .browser] ++ .replicate 17 .first ++
    .replicate 2 .removal ++ .replicate 18 .second

/-- Whom a process serves. -/
def servedBy : Option (HostProg Outcome) → Option Caller
  | some (.done (.serving caller)) => some caller
  | _ => none

theorem servedBy_eq_some {q : Option (HostProg Outcome)} {caller : Caller}
    (h : servedBy q = some caller) : q = some (.done (.serving caller)) := by
  unfold servedBy at h
  split at h
  · next served =>
    obtain rfl := Option.some.inj h
    rfl
  · cases h

def sampleManifest : Path := sampleChrome.manifestFile samplePlatform

def sampleRecord : ExtraIds := { geckoIds := [SAMPLE_GECKO_ID] }

theorem exists_sampleRun : ∃ qs t,
    Reaches (hostEffects fun _ => False) samplePrograms sampleMachine qs t ∧
    qs .browser = some (.done (.serving (.chromium SAMPLE_OTHER_ID))) ∧
    t.1.readFile samplePlatform.binaryPath = some [2] ∧
    t.1.readFile samplePlatform.extraIdsPath = some (toVecPretty sampleRecord.toJson) ∧
    t.1.readFile sampleManifest =
      some (manifestBody .beta samplePlatform .chromium sampleRecord) := by
  have hrun : ((hostRunner fun _ => False).run samplePrograms sampleMachine sampleOrder).any
      (fun (qs, t) => decide (servedBy (qs .browser) = some (.chromium SAMPLE_OTHER_ID) ∧
        t.1.readFile samplePlatform.binaryPath = some [2] ∧
        t.1.readFile samplePlatform.extraIdsPath = some (toVecPretty sampleRecord.toJson) ∧
        t.1.readFile sampleManifest =
          some (manifestBody .beta samplePlatform .chromium sampleRecord))) = true := by
    decide +kernel
  obtain ⟨⟨qs, t⟩, hrun, hend⟩ := (Option.any_eq_true ..).mp hrun
  obtain ⟨hserved, hfiles⟩ := of_decide_eq_true hend
  exact ⟨qs, t, (hostRunner _).run_sound hrun, servedBy_eq_some hserved, hfiles⟩

/-- The files of a run in which the second install had the last word. -/
theorem whole_together_sample : ∃ qs t,
    Reaches (hostEffects fun _ => False) samplePrograms sampleMachine qs t ∧
    t.1.readFile samplePlatform.binaryPath = some [2] ∧
    t.1.readFile samplePlatform.extraIdsPath = some (toVecPretty sampleRecord.toJson) ∧
    t.1.readFile sampleManifest = some (manifestBody .beta samplePlatform .chromium sampleRecord) ∧
    ∀ path, samplePlatform.Shared path → t.1.readFile path = sampleMachine.1.readFile path ∨
      t.1.readFile path = none ∨ ∃ body, t.1.readFile path = some body ∧
        Good sampleLaunches sampleSerdeJson .beta samplePlatform sampleMachine path body := by
  obtain ⟨qs, t, hr, -, hbinary, hrecord, hmanifest⟩ := exists_sampleRun
  exact ⟨qs, t, hr, hbinary, hrecord, hmanifest,
    fun _ hpath => whole_together sampleLaunches_apart hr hpath⟩

/-- A helper at its place serves no caller but those of its channel, and those that were asked
for. -/
theorem serves_together (h : Apart ls p)
    (hr : Reaches (hostEffects faulty) (fun i => some (main S channel p (ls i))) s qs t)
    (hexe : (ls i).exe = .ok p.binaryPath) (hserving : qs i = some (.done (.serving caller))) :
    (bakedIds channel).toExtra.names caller ∨ Asked ls S p s caller := by
  have hserves := (h.reaches hr).1 i _ hserving t ((h.besides S channel s i).preorder.refl t)
    caller rfl
  refine hserves.imp_right ?_
  rintro ⟨exe, hexe', u, r, hIu, -, hr, hnamed⟩
  obtain rfl : p.binaryPath = exe := Except.ok.inj (hexe.symm.trans hexe')
  have hdir : p.binaryPath.dropLast = p.helperDir := List.dropLast_concat
  rw [hdir] at hr
  exact (genuine_load hIu hr).asked hnamed

/-- The browser is served for the first install, whose record is overwritten later. -/
theorem serves_together_sample : ∃ qs t,
    Reaches (hostEffects fun _ => False) samplePrograms sampleMachine qs t ∧
    qs .browser = some (.done (.serving (.chromium SAMPLE_OTHER_ID))) ∧
    ((bakedIds .beta).toExtra.names (.chromium SAMPLE_OTHER_ID) ∨
      Asked sampleLaunches sampleSerdeJson samplePlatform sampleMachine
          (.chromium SAMPLE_OTHER_ID)) := by
  obtain ⟨qs, t, hr, hserved, -⟩ := exists_sampleRun
  exact ⟨qs, t, hr, hserved, serves_together sampleLaunches_apart hr rfl hserved⟩

end

end WarrenSdk.NativeHost
