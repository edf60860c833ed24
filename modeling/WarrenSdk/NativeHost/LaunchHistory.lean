import WarrenSdk.Lib.Lifetime
import WarrenSdk.NativeHost.Main

/-!
# Launches one after the other

The record is what the helper goes by, the manifests are what the browsers go by. Over a life of
launches, each of which may fail or be stopped anywhere, a manifest names nobody whom the helper
would refuse (`manifests_admitted`), and who was installed is served until an uninstall
(`installed_served`).
-/

namespace WarrenSdk.NativeHost
open Lib

section
variable (S : SerdeJson) (channel : Channel) (p : Platform)

/-- What is recorded. -/
def held (s : Machine) : ExtraIds := ExtraIds.load S (s.1.readFile p.extraIdsPath)

/-- The manifests name those only that are recorded. -/
def Admitted (s : Machine) : Prop :=
  ∀ b ∈ browsers p, ∀ body, s.1.readFile (b.manifestFile p) = some body →
    ∃ ids, body = manifestBody channel p b.family ids ∧ ids.Valid ∧
      ∀ caller, ids.names caller → (held S p s).names caller

end

/-- The files that the two gates depend on can be read and removed. -/
structure Works (faulty : FileOp → Prop) (p : Platform) : Prop where
  reads : ¬ faulty (.read p.extraIdsPath)
  finds : ∀ path, IsManifest p path → ¬ faulty (.existsAt path)
  removes : RemovesManifests faulty p

/-- What is done beside the launches: the record is left alone, and no manifest is written. -/
def Spares (p : Platform) (s t : Machine) : Prop :=
  t.1.readFile p.extraIdsPath = s.1.readFile p.extraIdsPath ∧
  ∀ path, IsManifest p path → t.1.readFile path = s.1.readFile path ∨ t.1.readFile path = none

variable {S : SerdeJson} {channel : Channel} {p : Platform} {faulty : FileOp → Prop} {pid : Nat}
  {s t u : Machine} {source : Path} {extra record : ExtraIds}

theorem isManifest_not_owned (h : IsManifest p path) : ¬ Owned pid path := by
  obtain ⟨b, hb, rfl⟩ := h
  exact Platform.Shared.not_owned (.manifest hb) pid

theorem record_not_owned : ¬ Owned pid p.extraIdsPath := Platform.Shared.not_owned .record pid

theorem isManifest_ne_record (h : IsManifest p path) : path ≠ p.extraIdsPath := by
  obtain ⟨b, -, rfl⟩ := h
  exact manifestFile_ne_record b p

theorem isManifest_ne_binary (h : IsManifest p path) : path ≠ p.binaryPath := by
  obtain ⟨b, -, rfl⟩ := h
  exact manifestFile_ne_binary b p

theorem held_of_eq (h : t.1.readFile p.extraIdsPath = s.1.readFile p.extraIdsPath) :
    held S p t = held S p s := congrArg (ExtraIds.load S) h

theorem held_of_written (hvalid : record.Valid)
    (h : t.1.readFile p.extraIdsPath = some (toVecPretty record.toJson)) : held S p t = record := by
  rw [held, h, ExtraIds.load_toVecPretty S hvalid]

/-! ## The steps of a launch -/

/-- The record is replaced whole, and no manifest is touched. -/
theorem exec_placeAndRecord {o : Option (Except InstallError ExtraIds)}
    (hreads : ¬ faulty (.read p.extraIdsPath))
    (he : Exec (hostEffects faulty) (placeAndRecord pid S p source extra) s o t) :
    (t.1.readFile p.extraIdsPath = s.1.readFile p.extraIdsPath ∨
      extra.Valid ∧ held S p t = (held S p s).merged extra) ∧
    (∀ path, IsManifest p path → t.1.readFile path = s.1.readFile path) ∧
    ∀ record, o = some (.ok record) → extra.Valid ∧ record = (held S p s).merged extra ∧
      held S p t = record := by
  let good (path : Path) (body : Bytes) : Prop := ¬ IsManifest p path ∧ (path = p.extraIdsPath →
    extra.Valid ∧ body = toVecPretty ((held S p s).merged extra).toJson)
  let N := Neighbours.alone p pid good (Placed p) s
  have hnotPlaced : ¬ Placed p p.extraIdsPath :=
    not_or.mpr ⟨record_ne_binary p, not_swept .record _⟩
  -- what the record is at any time, and what an install makes of it
  have hrecordAt {u : Machine} (hu : N.I u) : u.1.readFile p.extraIdsPath =
    s.1.readFile p.extraIdsPath ∨
      extra.Valid ∧ u.1.readFile p.extraIdsPath =
          some (toVecPretty ((held S p s).merged extra).toJson) := by
    rcases hu _ record_not_owned with heq | ⟨body, -, hgood, hbody⟩ | ⟨hplaced, -⟩
    · exact .inl heq
    · obtain ⟨hvalid, rfl⟩ := hgood.2 rfl
      exact .inr ⟨hvalid, hbody⟩
    · exact absurd hplaced hnotPlaced
  have hmerged (hvalid : extra.Valid) : ((held S p s).merged extra).Valid :=
    (ExtraIds.valid_load ..).merged hvalid
  have hover {u : Machine} (hu : N.I u) {r : Option Bytes} (hr : ReadOf faulty p.extraIdsPath u r) :
      recordOver S extra r = (held S p s).merged extra := by
    obtain rfl : r = u.1.readFile p.extraIdsPath := hr.resolve_right fun h => hreads h.1
    rcases hrecordAt hu with heq | ⟨hvalid, hwritten⟩
    · rw [recordOver, heq]
      rfl
    · rw [recordOver, hwritten, ExtraIds.load_toVecPretty S (hmerged hvalid),
        ExtraIds.merged_merged]
  have hbinary (body : Bytes) : good p.binaryPath body :=
    ⟨fun h => isManifest_ne_binary h rfl, fun h => absurd h.symm (record_ne_binary p)⟩
  have hrecording : Neighbours.Recording N faulty S source extra := {
    images _ _ _ _ := hbinary _
    aside _ := .inl rfl
    swept _ := .inr
    record hvalid u hu r hr :=
      ⟨fun h => isManifest_ne_record h rfl, fun _ => ⟨hvalid, by rw [hover hu hr]⟩⟩ }
  obtain ⟨hleaves, hC⟩ :=
    Neighbours.exec_alone (Neighbours.runs_placeAndRecord Neighbours.alone_start hrecording) he
  refine ⟨?_, fun path hpath => ?_, fun record ho => ?_⟩
  · refine (hrecordAt hleaves).imp_right fun ⟨hvalid, hwritten⟩ => ⟨hvalid, ?_⟩
    exact held_of_written (hmerged hvalid) hwritten
  · rcases hleaves path (isManifest_not_owned hpath) with heq | ⟨_, -, hgood, -⟩ | ⟨hplaced, -⟩
    · exact heq
    · exact absurd hpath hgood.1
    · obtain ⟨b, hb, rfl⟩ := hpath
      rcases hplaced with heq | hswept
      · exact absurd heq (manifestFile_ne_binary b p)
      · exact absurd hswept (not_swept (.manifest hb) _)
  · obtain ⟨u, r, hIu, hr, rfl, -⟩ := (hC record ho).made
    have hvalid := (hC _ ho).valid
    have hwritten := (hC _ ho).written record_not_owned
    rw [hover hIu hr] at hwritten ⊢
    exact ⟨hvalid, rfl, held_of_written (hmerged hvalid) hwritten⟩

/-- The manifests are replaced whole, and the record is not touched. -/
theorem exec_registerAll {o : Option (Except InstallError InstallReport)}
    (he : Exec (hostEffects faulty) (registerAll pid channel p record) s o t) :
    t.1.readFile p.extraIdsPath = s.1.readFile p.extraIdsPath ∧
    ∀ b ∈ browsers p, t.1.readFile (b.manifestFile p) = s.1.readFile (b.manifestFile p) ∨
      t.1.readFile (b.manifestFile p) = some (manifestBody channel p b.family record) := by
  let good (path : Path) (body : Bytes) : Prop := path ≠ p.extraIdsPath ∧
    ∀ b ∈ browsers p, path = b.manifestFile p → body = manifestBody channel p b.family record
  have hgood : ∀ b ∈ browsers p,
      good (b.manifestFile p) (manifestBody channel p b.family record) := by
    intro b hb
    refine ⟨manifestFile_ne_record b p, fun b' hb' heq => ?_⟩
    rw [family_of_manifestFile hb hb' heq]
  let N := Neighbours.alone p pid good (fun _ => False) s
  obtain ⟨hleaves, -⟩ :=
    Neighbours.exec_alone (Neighbours.runs_registerAll (N := N) Neighbours.alone_start hgood) he
  constructor
  · rcases hleaves _ record_not_owned with heq | ⟨_, -, hgood, -⟩ | ⟨hremoved, -⟩
    · exact heq
    · exact absurd rfl hgood.1
    · exact hremoved.elim
  · intro b hb
    rcases hleaves _ (isManifest_not_owned ⟨b, hb, rfl⟩)
      with heq | ⟨body, -, hgood, hbody⟩ | ⟨hremoved, -⟩
    · exact .inl heq
    · obtain rfl := hgood.2 b hb rfl
      exact .inr hbody
    · exact hremoved.elim

/-- What a launch that writes no shared file leaves. -/
theorem readFile_of_nothing_good {removes : Path → Prop}
    (h : Leaves p (Owned pid) (fun _ _ => False) removes s t) (hpath : ¬ Owned pid path) :
    t.1.readFile path = s.1.readFile path ∨ removes path ∧ t.1.readFile path = none := by
  rcases h path hpath with heq | ⟨_, -, hgood, -⟩ | hremoved
  · exact .inl heq
  · exact hgood.elim
  · exact .inr hremoved

theorem exec_removeManifests {o : Option (Except InstallError UninstallReport)}
    (hworks : Works faulty p)
    (he : Exec (hostEffects faulty) (removeManifests p) s o t) :
    t.1.readFile p.extraIdsPath = s.1.readFile p.extraIdsPath ∧
    (∀ path, IsManifest p path → t.1.readFile path = s.1.readFile path ∨ t.1.readFile path = none) ∧
    ∀ report, o = some (.ok report) → ∀ path, IsManifest p path → t.1.readFile path = none := by
  let N := Neighbours.alone p 0 (fun _ _ => False) (IsManifest p) s
  obtain ⟨hleaves, hC⟩ := Neighbours.exec_alone
    (Neighbours.runs_removeManifests (N := N) Neighbours.alone_start fun _ => id) he
  refine ⟨?_, fun path hpath => ?_, fun report ho path hpath => ?_⟩
  · refine (readFile_of_nothing_good hleaves record_not_owned).resolve_right ?_
    rintro ⟨hmanifest, -⟩
    exact isManifest_ne_record hmanifest rfl
  · exact (readFile_of_nothing_good hleaves (isManifest_not_owned hpath)).imp_right And.right
  · exact hC report ho hworks.finds (.inr hworks.removes) path hpath (isManifest_not_owned hpath)

theorem exec_removeHelper {report : UninstallReport} {exe : Option Path} {temp : Path}
    {o : Option (Except InstallError UninstallReport)}
    (he : Exec (hostEffects faulty) (removeHelper pid p exe temp report) s o t) :
    ∀ path, ¬ Owned pid path → t.1.readFile path = s.1.readFile path ∨
        t.1.readFile path = none := by
  let N := Neighbours.alone p pid (fun _ _ => False) (p.helperDir <+: ·) s
  obtain ⟨hleaves, -⟩ := Neighbours.exec_alone
    (Neighbours.runs_removeHelper (N := N) exe temp Neighbours.alone_start fun _ => id) he
  exact fun path hpath => (readFile_of_nothing_good hleaves hpath).imp_right And.right

/-! ## The two gates -/

/-- A machine on which a manifest was at most removed, and the record at most grew. -/
theorem Admitted.of_grown (h : Admitted S channel p s)
    (hheld : ∀ caller, (held S p s).names caller → (held S p t).names caller)
    (hmanifests : ∀ path, IsManifest p path → t.1.readFile path = s.1.readFile path ∨
      t.1.readFile path = none) : Admitted S channel p t := by
  intro b hb body hbody
  rcases hmanifests _ ⟨b, hb, rfl⟩ with heq | hnone
  · obtain ⟨ids, hbody, hvalid, hnamed⟩ := h b hb body (heq ▸ hbody)
    exact ⟨ids, hbody, hvalid, fun caller hcaller => hheld caller (hnamed caller hcaller)⟩
  · rw [hnone] at hbody
    cases hbody

theorem Admitted.of_none (h : ∀ path, IsManifest p path → t.1.readFile path = none) :
    Admitted S channel p t := by
  intro b hb body hbody
  rw [h _ ⟨b, hb, rfl⟩] at hbody
  cases hbody

theorem exec_install {o : Option (Except InstallError InstallReport)} (hworks : Works faulty p)
    (he : Exec (hostEffects faulty) (install pid S channel p source extra) s o t) :
    ((∀ report, o ≠ some (.ok report)) ∧ held S p t = held S p s ∨
      extra.Valid ∧ held S p t = (held S p s).merged extra) ∧
    (Admitted S channel p s → Admitted S channel p t) := by
  rcases he.of_bind with ⟨o', he, ho⟩ | ⟨record, u, he, he'⟩
  · obtain ⟨hrecord, hmanifests, -⟩ := exec_placeAndRecord hworks.reads he
    have hheld := hrecord.imp_left (held_of_eq (S := S))
    refine ⟨hheld.imp_left fun heq => ⟨ho, heq⟩, fun hadmitted => ?_⟩
    refine hadmitted.of_grown
      (fun caller hnamed => ?_) fun path hpath => .inl (hmanifests path hpath)
    rcases hheld with heq | ⟨-, heq⟩
    · rwa [heq]
    · rw [heq]
      exact ExtraIds.names_merged.mpr (.inl hnamed)
  · obtain ⟨-, hmanifests, hdone⟩ := exec_placeAndRecord hworks.reads he
    obtain ⟨hvalid, rfl, hheld⟩ := hdone record rfl
    obtain ⟨hrecord, hregistered⟩ := exec_registerAll he'
    have hheld' : held S p t = (held S p s).merged extra := (held_of_eq hrecord).trans hheld
    refine ⟨.inr ⟨hvalid, hheld'⟩, fun hadmitted b hb body hbody => ?_⟩
    rcases hregistered b hb with heq | hwritten
    · have hold : s.1.readFile (b.manifestFile p) = some body := by
        rw [← hmanifests _ ⟨b, hb, rfl⟩, ← heq, hbody]
      obtain ⟨ids, hids, hidsValid, hnamed⟩ := hadmitted b hb body hold
      refine ⟨ids, hids, hidsValid, fun caller hcaller => ?_⟩
      rw [hheld']
      exact ExtraIds.names_merged.mpr (.inl (hnamed caller hcaller))
    · refine ⟨_, Option.some.inj (hbody.symm.trans hwritten), ?_, fun caller hcaller => ?_⟩
      · exact (ExtraIds.valid_load ..).merged hvalid
      · rwa [hheld']

theorem exec_uninstall {exe : Option Path} {temp : Path}
    {o : Option (Except InstallError UninstallReport)} (hworks : Works faulty p)
    (he : Exec (hostEffects faulty) (uninstall pid p exe temp) s o t) :
    (held S p t = held S p s ∨ held S p t = {}) ∧
    (Admitted S channel p s → Admitted S channel p t) := by
  rcases he.of_bind with ⟨o', he, -⟩ | ⟨report, u, he, he'⟩
  · obtain ⟨hrecord, hmanifests, -⟩ := exec_removeManifests hworks he
    refine ⟨.inl (held_of_eq hrecord), fun h => h.of_grown (fun caller hnamed => ?_) hmanifests⟩
    rwa [held_of_eq hrecord]
  · obtain ⟨hrecord, -, hgone⟩ := exec_removeManifests hworks he
    have hrest := exec_removeHelper he'
    constructor
    · rcases hrest _ record_not_owned with heq | hnone
      · exact .inl (held_of_eq (heq.trans hrecord))
      · exact .inr (congrArg (ExtraIds.load S) hnone)
    · refine fun _ => .of_none fun path hpath => ?_
      exact (hrest path (isManifest_not_owned hpath)).elim
        (·.trans (hgone report rfl path hpath)) id

/-! ## Launches -/

/-- What a launch makes of the record. -/
inductive Records (held : ExtraIds) (l : Launch) (o : Option (Except InstallError Outcome)) :
    ExtraIds → Prop
  | kept : (∀ source extra interactive out, l.Installs source extra interactive →
    o ≠ some (.ok out)) → Records held l o held
  | installed {source : Path} {extra : ExtraIds} {interactive : Bool} :
    l.Installs source extra interactive → extra.Valid → Records held l o (held.merged extra)
  | removed : parse l.args = .ok .uninstall → Records held l o {}

/-- A launch that only looks at files. -/
theorem exec_looks {α : Type} {prog : HostProg α} {C : α → Machine → Prop}
    {o : Option (Except InstallError α)}
    (h : (Neighbours.alone p pid (fun _ _ => False) (fun _ => False) s).Runs faulty
      (fun _ => True) C
      prog s) (he : Exec (hostEffects faulty) prog s o t) :
    held S p t = held S p s ∧ (Admitted S channel p s → Admitted S channel p t) := by
  obtain ⟨hleaves, -⟩ := Neighbours.exec_alone h he
  have hsame {path : Path} (hpath : ¬ Owned pid path) : t.1.readFile path = s.1.readFile path :=
    (readFile_of_nothing_good hleaves hpath).resolve_right fun h => h.1
  have hheld : held S p t = held S p s := held_of_eq (hsame record_not_owned)
  refine ⟨hheld, fun h => h.of_grown (fun caller hnamed => ?_) fun path hpath => ?_⟩
  · rwa [hheld]
  · exact .inl (hsame (isManifest_not_owned hpath))

/-- Without a home directory a launch that asks for the platform does nothing. -/
theorem exec_of_current {α : Type} {l : Launch} {rest : Platform → HostProg α}
    {o : Option (Except InstallError α)}
    (he : Exec (hostEffects faulty) (Platform.current p l >>= rest) s o t) :
    t = s ∧ (∀ out, o ≠ some (.ok out)) ∨ Exec (hostEffects faulty) (rest p) s o t := by
  unfold Platform.current at he
  split at he
  · exact .inr he
  · cases he with
    | stop | fail => exact .inl ⟨rfl, nofun⟩

/-- What a launch makes of the record, and that the gates agree after it. -/
theorem exec_main {l : Launch} {o : Option (Except InstallError Outcome)} (hworks : Works faulty p)
    (he : Exec (hostEffects faulty) (main S channel p l) s o t) :
    Records (held S p s) l o (held S p t) ∧ (Admitted S channel p s → Admitted S channel p t) := by
  have hlooks {C : Outcome → Machine → Prop} {prog : HostProg Outcome}
      (hargs : ∀ extra interactive, parse l.args ≠ .ok (.install extra interactive))
      (h : (Neighbours.alone p l.pid (fun _ _ => False) (fun _ => False) s).Runs faulty
        (fun _ => True) C prog s) (he : Exec (hostEffects faulty) prog s o t) :
      Records (held S p s) l o (held S p t) ∧
      (Admitted S channel p s → Admitted S channel p t) := by
    obtain ⟨hheld, hadmitted⟩ : held S p t = held S p s ∧
        (Admitted S channel p s → Admitted S channel p t) := exec_looks h he
    rw [hheld]
    exact ⟨.kept fun _ _ _ _ hinstalls => absurd hinstalls.args (hargs _ _), hadmitted⟩
  have hdone {out : Outcome} : (Neighbours.alone p l.pid (fun _ _ => False) (fun _ => False) s).Runs
      faulty (fun _ => True) (fun _ _ => True) (.done out) s :=
    .pure Neighbours.alone_start fun _ _ => trivial
  unfold main at he
  split at he
  · next caller hargs =>
    exact hlooks (by rw [hargs]; exact nofun)
      (Neighbours.runs_runHost caller Neighbours.alone_start) he
  · next extra interactive hargs =>
    rcases exec_of_current he with ⟨rfl, hno⟩ | he
    · exact ⟨.kept fun _ _ _ _ _ => hno _, id⟩
    split at he
    · next e hexe =>
      have hst : t = s := by
        cases he with
        | stop | fail => rfl
      rw [hst]
      refine ⟨.kept fun _ _ _ _ hinstalls => ?_, id⟩
      exact absurd (hexe.symm.trans hinstalls.exe) nofun
    · next source hexe =>
      have hinstalls : l.Installs source extra interactive := ⟨hargs, hexe⟩
      rcases he.of_bind with ⟨o', he, ho⟩ | ⟨report, u, he, he'⟩
      · obtain ⟨⟨-, heq⟩ | ⟨hvalid, heq⟩, hadmitted⟩ := exec_install hworks he
        · exact ⟨heq ▸ .kept fun _ _ _ out _ => ho out, hadmitted⟩
        · exact ⟨heq ▸ .installed hinstalls hvalid, hadmitted⟩
      · have hut : t = u := by
          cases he' with
          | stop | done => rfl
        rw [hut]
        obtain ⟨⟨hno, -⟩ | ⟨hvalid, heq⟩, hadmitted⟩ := exec_install hworks he
        · exact absurd rfl (hno report)
        · exact ⟨heq ▸ .installed hinstalls hvalid, hadmitted⟩
  · next hargs =>
    have huninstalled {u : Machine} {o : Option (Except InstallError UninstallReport)}
        (he : Exec (hostEffects faulty) (uninstall l.pid p l.exe.toOption l.temp) s o u) :
        ∀ o', Records (held S p s) l o' (held S p u) ∧
        (Admitted S channel p s → Admitted S channel p u) := by
      intro o'
      obtain ⟨heq | heq, hadmitted⟩ := exec_uninstall hworks he
      · refine ⟨heq ▸ .kept fun _ _ _ _ hinstalls => ?_, hadmitted⟩
        exact absurd (hargs.symm.trans hinstalls.args) nofun
      · exact ⟨heq ▸ .removed hargs, hadmitted⟩
    rcases exec_of_current he with ⟨rfl, hno⟩ | he
    · exact ⟨.kept fun _ _ _ _ _ => hno _, id⟩
    rcases he.of_bind with ⟨o', he, -⟩ | ⟨report, u, he, he'⟩
    · exact huninstalled he _
    · have hut : t = u := by
        cases he' with
        | stop | done => rfl
      rw [hut]
      exact huninstalled he _
  · next hargs =>
    rcases exec_of_current he with ⟨rfl, hno⟩ | he
    · exact ⟨.kept fun _ _ _ _ _ => hno _, id⟩
    refine hlooks (by rw [hargs]; exact nofun) (C := fun _ _ => True) ?_ he
    refine (Neighbours.runs_existsAt p.binaryPath Neighbours.alone_start).bind fun _ s hI _ _ => ?_
    exact (Neighbours.runs_registrations hI).bind fun _ s hI _ _ => .pure hI fun _ _ => trivial
  · next hargs => exact hlooks (by rw [hargs]; exact nofun) hdone he
  · next hargs => exact hlooks (by rw [hargs]; exact nofun) hdone he
  · next hargs => exact hlooks (by rw [hargs]; exact nofun) hdone he

/-- A helper at its place serves a caller whom the record names, or who is of the channel. -/
theorem exec_serving {ids : ExtraIds} {caller : Caller} {l : Launch}
    {o : Option (Except InstallError Outcome)} (hworks : Works faulty p) (hvalid : ids.Valid)
    (hnamed : ids.names caller)
    (hadmits : (Allowlist.new channel (held S p s)).admits caller = true)
    (hexe : l.exe = .ok p.binaryPath) (hcalls : Calls caller l.args) (hstarts : l.Starts)
    (he : Exec (hostEffects faulty) (main S channel p l) s o t) :
    ∀ out, o = some out → out = .ok (.serving caller) := by
  have hstart : startHost p l caller = .done (.serving caller) := by
    unfold startHost Platform.current
    rw [if_pos hstarts.home, hstarts.runtime]
    rfl
  have hdir : p.binaryPath.dropLast ++ [ExtraIds.FILE_NAME] = p.extraIdsPath :=
    congrArg (· ++ [ExtraIds.FILE_NAME]) List.dropLast_concat
  unfold main at he
  rw [parse_of_calls hvalid hnamed hcalls] at he
  simp only [runHost, ownRecord, hexe, hstart] at he
  rw [hdir] at he
  cases he with
  | stop | within => nofun
  | call hr he =>
    obtain ⟨⟨-, hread⟩, -⟩ := hr
    obtain rfl := hread.resolve_right fun h => hworks.reads h.1
    have hserved : (if !(Allowlist.new channel (held S p s)).admits caller then
        (.done (.refused caller) : HostProg Outcome) else .done (.serving caller)) =
        .done (.serving caller) := if_neg (by rw [hadmits]; nofun)
    have he : Exec (hostEffects faulty) (if !(Allowlist.new channel (held S p s)).admits caller then
        (.done (.refused caller) : HostProg Outcome) else .done (.serving caller)) _ o t := he
    rw [hserved] at he
    cases he with
    | stop => nofun
    | done =>
      rintro out hout
      cases hout
      rfl

/-! ## Lives -/

/-- Launches one after the other, and what is done beside them. -/
abbrev LaunchLife (faulty : FileOp → Prop) (S : SerdeJson) (channel : Channel) (p : Platform) :
    Machine → List (Logged Launch InstallError Outcome) → Machine → Prop :=
  Life (hostEffects faulty) (main S channel p) (Spares p)

variable {log : List (Logged Launch InstallError Outcome)}

theorem life_admitted (hworks : Works faulty p) (h : LaunchLife faulty S channel p s log t)
    (hs : Admitted S channel p s) : Admitted S channel p t := by
  induction h with
  | nil => exact hs
  | call he _ ih => exact ih ((exec_main hworks he).2 hs)
  | others hspares _ ih =>
    refine ih (hs.of_grown (fun caller hnamed => ?_) hspares.2)
    rwa [held_of_eq hspares.1]

theorem life_records (hworks : Works faulty p) (h : LaunchLife faulty S channel p s log t) :
    Replay Records (held S p s) log (held S p t) :=
  h.replay (fun _ _ _ _ he => (exec_main hworks he).1) fun _ _ hspares => held_of_eq hspares.1

/-! ## An install that returns -/

theorem exists_exec_writeFile (faulty : FileOp → Prop) (pid : Nat) (dir : Path) (name : String)
    (body : Bytes) (hname : "." ++ name ++ "." ++ "tmp" ++ "-" ++ toString pid ≠ name)
    (hdir : ∀ q, q <+: dir → ∀ content, s.1.entry q ≠ some (.file content))
    (htmp : s.1.entry (sibling pid (dir ++ [name]) "tmp") ≠ some .directory)
    (hpath : s.1.entry (dir ++ [name]) ≠ some .directory) :
    ∃ t, Exec (hostEffects faulty) (writeFile pid (dir ++ [name]) body) s (some (.ok ())) t ∧
      t.1.readFile (dir ++ [name]) = some body ∧ (∀ q, q <+: dir → t.1.entry q = some .directory) ∧
      ∀ q, ¬ q <+: dir → q ≠ sibling pid (dir ++ [name]) "tmp" → q ≠ dir ++ [name] →
        t.1.entry q = s.1.entry q := by
  have hsibling : sibling pid (dir ++ [name]) "tmp" =
      dir ++ ["." ++ name ++ "." ++ "tmp" ++ "-" ++ toString pid] := by
    rw [sibling, List.dropLast_concat, List.getLastD_concat]
  rw [hsibling] at htmp
  obtain ⟨s₁, s₂, t, hcreated, hwritten, hrenamed, hrest⟩ :=
    Disk.exists_replaced hname hdir htmp hpath body
  refine ⟨(t, s.2), ?_, hsibling ▸ hrest⟩
  unfold writeFile
  rw [hsibling, List.dropLast_concat]
  refine .call (t := (s₁, s.2)) ⟨.inl ⟨rfl, hcreated⟩, rfl⟩ ?_
  refine .call (t := (s₂, s.2)) ⟨.inl ⟨rfl, hwritten⟩, rfl⟩ ?_
  exact .call (t := (t, s.2)) ⟨.inl ⟨rfl, hrenamed⟩, rfl⟩ .done

theorem exec_existsAt (path : Path) : Exec (hostEffects faulty) (existsAt path) s
    (some (.ok (s.1.entry path).isSome)) s := .call ⟨⟨rfl, .inl rfl⟩, rfl⟩ .done

theorem exec_selectBrowsers (all : List Browser) {found : List Browser} (hfound : found ≠ [])
    (h : all.filter (fun b => (s.1.entry b.profile).isSome) = found) :
    Exec (hostEffects faulty) (selectBrowsers all) s (some (.ok (found, true))) s := by
  have hfold (before rest : List Browser) : Exec (hostEffects faulty)
      (Prog.foldM (fun found (b : Browser) => do
        return if ← existsAt b.profile then found ++ [b] else found) before rest) s
      (some (.ok (before ++ rest.filter fun b => (s.1.entry b.profile).isSome))) s := by
    induction rest generalizing before with
    | nil =>
      rw [List.filter_nil, List.append_nil]
      exact .done
    | cons b rest ih =>
      have hturn : Exec (hostEffects faulty) (do
          return if ← existsAt b.profile then before ++ [b] else before) s
          (some (.ok (if (s.1.entry b.profile).isSome then before ++ [b] else before))) s :=
        (exec_existsAt b.profile).bind rfl .done
      have hsplit : before ++ (b :: rest).filter (fun b => (s.1.entry b.profile).isSome) =
          (if (s.1.entry b.profile).isSome then before ++ [b] else before) ++
            rest.filter fun b => (s.1.entry b.profile).isSome := by
        rw [List.filter_cons]
        split
        · rw [List.append_assoc, List.singleton_append]
        · rfl
      rw [hsplit]
      exact hturn.bind rfl (ih _)
  subst h
  exact (hfold [] all).bind rfl (by rw [List.nil_append, if_neg hfound]; exact .done)

def sampleInstall : Launch where
  pid := 2
  args := ["install", "--extension-id", SAMPLE_OTHER_ID]
  exe := .ok samplePlatform.binaryPath
  temp := ["tmp"]

def sampleExtra : ExtraIds := { extensionIds := [SAMPLE_OTHER_ID] }

theorem sampleInstall_installs :
    sampleInstall.Installs samplePlatform.binaryPath sampleExtra false where
  args := by
    have hvalid : (Flag.collect [.extensionId SAMPLE_OTHER_ID]).Valid := ⟨by decide, by decide⟩
    exact parse_flags hvalid
  exe := rfl

def sampleReport : InstallReport where
  binary := samplePlatform.binaryPath
  browsers := ["Chrome"]
  detected := true

/-- The install returns, and the manifest of the browser is there. -/
theorem exists_exec_sampleInstall : ∃ t, Exec (hostEffects fun _ => False)
    (main sampleSerdeJson .beta samplePlatform sampleInstall) sampleHome
    (some (.ok (.installed sampleReport false))) t ∧
    t.1.readFile (sampleChrome.manifestFile samplePlatform) =
      some (manifestBody .beta samplePlatform .chromium sampleExtra) := by
  have hvalidate : validateIds sampleExtra = .ok () := rfl
  have hplace : Exec (hostEffects fun _ => False) (placeBinary 2 samplePlatform.os
      samplePlatform.binaryPath samplePlatform.binaryPath) sampleHome (some (.ok ()))
          sampleHome := by
    have hthere : (sampleHome.1.entry samplePlatform.binaryPath).isSome = true := by decide
    have hexists : Exec (hostEffects fun _ => False) (existsAt samplePlatform.binaryPath) sampleHome
      (some (.ok true)) sampleHome := hthere ▸ exec_existsAt samplePlatform.binaryPath
    have hsame : Exec (hostEffects fun _ => False) (sameFile samplePlatform.binaryPath
        samplePlatform.binaryPath) sampleHome (some (.ok true)) sampleHome :=
      hexists.bind rfl (hexists.bind rfl (by rw [decide_eq_true rfl]; exact .done))
    exact hsame.bind rfl .done
  have hread : Exec (hostEffects fun _ => False) (readFile samplePlatform.extraIdsPath) sampleHome
      (some (.ok none)) sampleHome := .call ⟨⟨rfl, .inl rfl⟩, rfl⟩ .done
  have hhome : ∀ q ∈ samplePlatform.helperDir.inits, sampleHome.1.entry q = some .directory := by
    decide
  obtain ⟨t, hwrite, -, hdirs, hkept⟩ := exists_exec_writeFile (s := sampleHome) (fun _ => False) 2
    samplePlatform.helperDir ExtraIds.FILE_NAME (toVecPretty sampleExtra.toJson) (by decide)
    (fun q hq content => by
      rw [hhome q ((List.mem_inits ..).mpr hq)]
      nofun) (by decide) (by decide)
  have hrecord : Exec (hostEffects fun _ => False) (placeAndRecord 2 sampleSerdeJson samplePlatform
      samplePlatform.binaryPath sampleExtra) sampleHome (some (.ok sampleExtra)) t := by
    unfold placeAndRecord
    rw [hvalidate]
    exact hplace.bind rfl (hread.bind rfl (hwrite.bind rfl .done))
  -- the browsers are as before
  have hfar : ∀ b ∈ browsers samplePlatform, ¬ b.profile <+: samplePlatform.helperDir ∧
      b.profile ≠ sibling 2 (samplePlatform.helperDir ++ [ExtraIds.FILE_NAME]) "tmp" ∧
      b.profile ≠ samplePlatform.helperDir ++ [ExtraIds.FILE_NAME] := by decide
  have hfound : (browsers samplePlatform).filter (fun b => (t.1.entry b.profile).isSome) =
      [sampleChrome] := by
    have hsame : ∀ b ∈ browsers samplePlatform,
        (t.1.entry b.profile).isSome = (sampleHome.1.entry b.profile).isSome := by
      intro b hb
      obtain ⟨hprofile, htmp, hname⟩ := hfar b hb
      rw [hkept _ hprofile htmp hname]
    rw [List.filter_congr hsame]
    decide
  have hselect : Exec (hostEffects fun _ => False) _ t _ t :=
    exec_selectBrowsers (browsers samplePlatform) (List.cons_ne_nil _ _) hfound
  -- nothing is in the way of its manifest
  have hbeside : ∀ q ∈ (sampleProfile ++ ["NativeMessagingHosts"]).inits,
      q <+: samplePlatform.helperDir ∨
      q ≠ sibling 2 (samplePlatform.helperDir ++ [ExtraIds.FILE_NAME]) "tmp" ∧
      q ≠ samplePlatform.helperDir ++ [ExtraIds.FILE_NAME] ∧
      (sampleHome.1.entry q = some .directory ∨ sampleHome.1.entry q = none) := by decide
  have hclear (q : Path) (hq : q <+: sampleProfile ++ ["NativeMessagingHosts"]) (content : Bytes) :
      t.1.entry q ≠ some (.file content) := by
    by_cases hhelper : q <+: samplePlatform.helperDir
    · rw [hdirs q hhelper]
      nofun
    · obtain ⟨htmp, hname, hentry⟩ := (hbeside q ((List.mem_inits ..).mpr hq)).resolve_left hhelper
      rw [hkept q hhelper htmp hname]
      rcases hentry with hentry | hentry <;> rw [hentry] <;> nofun
  have htmp : t.1.entry (sibling 2
      (sampleProfile ++ ["NativeMessagingHosts"] ++ [MANIFEST_NAME]) "tmp") ≠ some .directory := by
    rw [hkept _ (by decide) (by decide) (by decide)]
    decide
  have hpath : t.1.entry (sampleProfile ++ ["NativeMessagingHosts"] ++ [MANIFEST_NAME]) ≠
      some .directory := by
    rw [hkept _ (by decide) (by decide) (by decide)]
    decide
  obtain ⟨u, hmanifest, hbody, -⟩ := exists_exec_writeFile (s := t) (fun _ => False) 2
    (sampleProfile ++ ["NativeMessagingHosts"]) MANIFEST_NAME
    (manifestBody .beta samplePlatform .chromium sampleExtra) (by decide) hclear htmp hpath
  have hregister : Exec (hostEffects fun _ => False)
      (register 2 .beta samplePlatform sampleExtra sampleChrome) t (some (.ok ())) u :=
    hmanifest.bind rfl .done
  have hall : Exec (hostEffects fun _ => False) (Prog.foldM (fun () b =>
      register 2 .beta samplePlatform sampleExtra b) () [sampleChrome]) t (some (.ok ())) u :=
    hregister.bind rfl .done
  have hregistered : Exec (hostEffects fun _ => False)
    (registerAll 2 .beta samplePlatform sampleExtra) t
      (some (.ok sampleReport)) u :=
    hselect.bind rfl (hall.bind rfl (by
      have hnames : displayNames [sampleChrome] = ["Chrome"] := by decide
      rw [hnames]
      exact .done))
  have hinstall : Exec (hostEffects fun _ => False) (install 2 sampleSerdeJson .beta samplePlatform
      samplePlatform.binaryPath sampleExtra) sampleHome _ u := hrecord.bind rfl hregistered
  refine ⟨u, ?_, hbody⟩
  unfold main
  rw [sampleInstall_installs.args]
  exact hinstall.bind rfl .done

/-- Wherever launches were stopped: whom a manifest lets through, the helper serves. -/
theorem manifests_admitted (hworks : Works faulty p) (h : LaunchLife faulty S channel p s log t)
    (hs : Admitted S channel p s) {b : Browser} (hb : b ∈ browsers p)
    (hbody : t.1.readFile (b.manifestFile p) = some body) :
    ∃ allow, body = toVecPretty (manifest b.family (p.text p.binaryPath) allow) ∧
      ∀ caller, allow.admits caller = true → ∀ l : Launch, l.exe = .ok p.binaryPath →
      Calls caller l.args → l.Starts → ∀ o u, Exec (hostEffects faulty) (main S channel p l) t o u →
      ∀ out, o = some out → out = .ok (.serving caller) := by
  obtain ⟨ids, rfl, hvalid, hnamed⟩ := life_admitted hworks h hs b hb body hbody
  refine ⟨.new channel ids, rfl, fun caller hadmits l hexe hcalls hstarts o u he => ?_⟩
  have hin : ((bakedIds channel).toExtra.merged ids).names caller :=
    ExtraIds.names_merged.mpr (admits_new.mp hadmits)
  refine exec_serving hworks ((valid_bakedIds channel).merged hvalid) hin ?_ hexe hcalls hstarts he
  exact admits_new.mpr ((admits_new.mp hadmits).imp_right (hnamed caller))

theorem sampleHome_admitted : Admitted sampleSerdeJson .beta samplePlatform sampleHome := by
  have hnone : ∀ b ∈ browsers samplePlatform,
      sampleHome.1.readFile (b.manifestFile samplePlatform) = none := by decide
  apply Admitted.of_none
  rintro _ ⟨b, hb, rfl⟩
  exact hnone b hb

theorem works_sample : Works (fun _ => False) samplePlatform := ⟨id, fun _ _ => id, fun _ _ => id⟩

/-- After the install, the browser lets through what the helper serves. -/
theorem manifests_admitted_sample : ∃ t,
    LaunchLife (fun _ => False) sampleSerdeJson .beta samplePlatform sampleHome
      [(sampleInstall, some (.ok (.installed sampleReport false)))] t ∧
    ∃ allow, manifestBody .beta samplePlatform .chromium sampleExtra =
        toVecPretty (manifest .chromium (samplePlatform.text samplePlatform.binaryPath) allow) ∧
      ∀ caller, allow.admits caller = true → ∀ l : Launch, l.exe = .ok samplePlatform.binaryPath →
      Calls caller l.args → l.Starts → ∀ o u, Exec (hostEffects fun _ => False)
        (main sampleSerdeJson .beta samplePlatform l) t o u →
      ∀ out, o = some out → out = .ok (.serving caller) := by
  obtain ⟨t, he, hbody⟩ := exists_exec_sampleInstall
  have hchrome : sampleChrome ∈ browsers samplePlatform := by decide
  exact ⟨t, .call he .nil,
    manifests_admitted works_sample (.call he .nil) sampleHome_admitted hchrome hbody⟩

/-- An install that returned is not lost: until an uninstall, the helper serves whom it was for. -/
theorem installed_served {before after : List (Logged Launch InstallError Outcome)} {l : Launch}
    {out : Outcome} {interactive : Bool} {caller : Caller} (hworks : Works faulty p)
    (h : LaunchLife faulty S channel p s (before ++ (l, some (.ok out)) :: after) t)
    (hinstalls : l.Installs source extra interactive) (hnamed : extra.names caller)
    (hafter : ∀ entry ∈ after, parse entry.1.args ≠ .ok .uninstall) {l' : Launch}
    (hexe : l'.exe = .ok p.binaryPath) (hcalls : Calls caller l'.args) (hstarts : l'.Starts)
    {o : Option (Except InstallError Outcome)}
    (he : Exec (hostEffects faulty) (main S channel p l') t o u) :
    ∀ out, o = some out → out = .ok (.serving caller) := by
  obtain ⟨mid, -, hrest⟩ := (life_records hworks h).split
  obtain ⟨hvalid, hrecorded⟩ : extra.Valid ∧ (held S p t).names caller := by
    cases hrest with
    | call hspec hrest =>
      cases hspec with
      | kept hno => exact absurd rfl (hno source extra interactive out hinstalls)
      | removed hargs => exact absurd (hargs.symm.trans hinstalls.args) nofun
      | installed hinstalls' hvalid =>
        cases hinstalls.args.symm.trans hinstalls'.args
        refine ⟨hvalid, hrest.invariant (I := fun held => held.names caller) ?_ ?_⟩
        · exact ExtraIds.names_merged.mpr (.inr hnamed)
        · rintro entry hentry held held' hin (⟨-⟩ | ⟨-, -⟩ | hargs)
          · exact hin
          · exact ExtraIds.names_merged.mpr (.inl hin)
          · exact absurd hargs (hafter entry hentry)
  exact exec_serving hworks hvalid hnamed (admits_new.mpr (.inr hrecorded)) hexe hcalls hstarts he

/-- The browser launches the helper after the install, and after another one that was stopped. -/
def sampleCall : Launch where
  pid := 3
  args := [Allowlist.origin SAMPLE_OTHER_ID]
  exe := .ok samplePlatform.binaryPath
  temp := ["tmp"]

theorem installed_served_sample : ∃ t,
    LaunchLife (fun _ => False) sampleSerdeJson .beta samplePlatform sampleHome
      ([] ++ (sampleInstall, some (.ok (.installed sampleReport false))) ::
        [(sampleInstall, none)]) t ∧
    ∀ o u, Exec (hostEffects fun _ => False)
      (main sampleSerdeJson .beta samplePlatform sampleCall) t o u →
      ∀ out, o = some out → out = .ok (.serving (.chromium SAMPLE_OTHER_ID)) := by
  obtain ⟨t, he, -⟩ := exists_exec_sampleInstall
  have hlife : LaunchLife (fun _ => False) sampleSerdeJson .beta samplePlatform sampleHome
      ([] ++ (sampleInstall, some (.ok (.installed sampleReport false))) ::
          [(sampleInstall, none)]) t :=
    .call he (.call .stop .nil)
  have hafter : ∀ entry ∈ [((sampleInstall, none) : Logged Launch InstallError Outcome)],
      parse entry.1.args ≠ .ok .uninstall := by
    intro entry hentry
    obtain rfl := List.mem_singleton.mp hentry
    rw [sampleInstall_installs.args]
    nofun
  have hexe : sampleCall.exe = .ok samplePlatform.binaryPath := rfl
  have hcalls : Calls (.chromium SAMPLE_OTHER_ID) sampleCall.args := ⟨[], rfl⟩
  refine ⟨t, hlife, fun o u he' => ?_⟩
  exact installed_served works_sample hlife sampleInstall_installs
    (List.mem_singleton.mpr rfl) hafter
    hexe hcalls ⟨rfl, rfl⟩ he'

end WarrenSdk.NativeHost
