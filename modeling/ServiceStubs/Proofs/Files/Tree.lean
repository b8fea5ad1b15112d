import ServiceStubs.Files.Tree
import ServiceStubs.Proofs.Files.Path
import ServiceStubs.Proofs.Session.Execution

/-!
# What an operation on files changes

Putting something at the end of some names changes what is there and below, and
nothing else: files elsewhere keep their contents, and directories stay
directories.  So a path that leads somewhere still leads there.  The entries of a
directory that is known are made and written where their names say.

## Main definitions

* `FileTree.Keeps` — whether all files and directories of one tree are still in
  another one.
* `FileTree.HasDirectory` — whether a path leads to a directory at the end of some
  names.
* `CanHold` — whether the path of an entry of a directory can be followed.
* `FileTree.locate_joinPath`, `FileTree.makeDirs_joinPath`,
  `FileTree.write_joinPath` — the operations on the entries of a directory.
-/

namespace ServiceStubs

namespace FileTree

variable {t s d new : FileTree} {names : List String} {name : String}

/-! ## Entries -/

theorem get?_cons (t : FileTree) (name : String) (names : List String) :
    t.get? (name :: names) = Option.bind ( entry? name t) (·.get? names) := rfl

@[simp] theorem get?_singleton (t : FileTree) (name : String) : t.get? [name] = entry? name t :=
  Option.bind_fun_some _

theorem get?_append (t : FileTree) (names rest : List String) :
    t.get? (names ++ rest) = (t.get? names).bind (·.get? rest) :=
  List.foldlM_append

@[simp] theorem entry?_directory (name : String) (entries : List (String × FileTree)) :
    entry? name (directory entries) = entries.lookup name := rfl

theorem lookup_map_update (f : FileTree → FileTree) (name m : String)
    (entries : List (String × FileTree)) :
    (entries.map fun (n, t) => (n, if n = name then f t else t)).lookup m
      = (entries.lookup m).map fun t => if m = name then f t else t := by
  induction entries with
  | nil => rfl
  | cons e entries ih =>
      obtain ⟨n, found⟩ := e
      simp only [List.map_cons, List.lookup_cons, ih]
      by_cases hm : m = n
      · simp [hm]
      · simp [beq_false_of_ne hm]

theorem lookup_eq_none_of_any {entries : List (String × FileTree)}
    (h : ¬entries.any (·.1 = name)) : entries.lookup name = none := by
  rw [List.lookup_eq_none_iff]
  intro e he
  simp only [List.any_eq_true, decide_eq_true_eq, not_exists, not_and] at h
  simpa using Ne.symm (h e he)

/-- What a directory has after something was put below one of its entries. -/
theorem entry?_put (entries : List (String × FileTree)) (name : String) (names : List String)
    (new : FileTree) (m : String) :
    entry? m ((directory entries).put (name :: names) new)
      = if m = name then some (((entries.lookup name).getD ∅).put names new)
        else entries.lookup m := by
  rw [put]
  split
  · rename_i hany
    refine (lookup_map_update (·.put names new) name m entries).trans ?_
    obtain ⟨e, he, hname⟩ := List.any_eq_true.mp hany
    by_cases hm : m = name
    · obtain ⟨found, hfound⟩ : ∃ found, entries.lookup name = some found := by
        rw [← Option.isSome_iff_exists, Option.isSome_iff_ne_none, Ne,
          List.lookup_eq_none_iff]
        exact fun hnone => by simpa [of_decide_eq_true hname] using hnone e he
      simp [hm, hfound]
    · simp [hm]
  · rename_i hany
    rw [entry?_directory, List.lookup_append, lookup_eq_none_of_any hany]
    by_cases hm : m = name
    · simp [hm, lookup_eq_none_of_any hany]
    · simp [hm, List.lookup_cons, beq_false_of_ne hm]

theorem put_directory (entries : List (String × FileTree)) (name : String) (names : List String)
    (new : FileTree) : ∃ entries', (directory entries).put (name :: names) new
      = directory entries' := by
  rw [put]
  split <;> exact ⟨_, rfl⟩

/-- **What was put below something is below it.** -/
theorem get?_put_append (h : t.get? names = some d) (rest : List String) (new : FileTree) :
    (t.put (names ++ rest) new).get? names = some (d.put rest new) := by
  induction names generalizing t with
  | nil => exact congrArg some (congrArg (FileTree.put · rest new) (Option.some.inj h))
  | cons name names ih =>
      rw [get?_cons] at h
      obtain ⟨e, hentry, he⟩ := Option.bind_eq_some_iff.mp h
      cases t with
      | file content => exact nomatch hentry
      | directory entries =>
          rw [List.cons_append, get?_cons, entry?_put, if_pos rfl,
            show entries.lookup name = some e from hentry]
          exact ih he

/-- The entries of a directory after something was put below one of them. -/
theorem get?_put_entry {entries : List (String × FileTree)}
    (h : t.get? names = some (directory entries)) (name : String) (rest : List String)
    (new : FileTree) (m : String) :
    (t.put (names ++ name :: rest) new).get? (names ++ [m])
      = if m = name then some (((t.get? (names ++ [name])).getD ∅).put rest new)
        else t.get? (names ++ [m]) := by
  simp only [get?_append, get?_put_append h, h, Option.bind_some, get?_singleton,
    entry?_put, entry?_directory]

/-! ## What stays -/

/-- Whether the file or the directory at the end of some names is still there: a
file with its content, and a directory with whatever entries. -/
structure KeepsAt (names : List String) (t s : FileTree) : Prop where
  file : ∀ content, t.get? names = some (file content) → s.get? names = some (file content)
  directory : ∀ entries, t.get? names = some (directory entries) →
    ∃ entries', s.get? names = some (directory entries')

/-- Whether all files and directories of a tree are still there. -/
def Keeps (t s : FileTree) : Prop :=
  ∀ names, KeepsAt names t s

@[refl] theorem Keeps.refl (t : FileTree) : t.Keeps t :=
  fun _ => ⟨fun _ => id, fun entries h => ⟨entries, h⟩⟩

theorem KeepsAt.trans {r : FileTree} (h : KeepsAt names t s) (h' : KeepsAt names s r) :
    KeepsAt names t r where
  file content hfile := h'.file content (h.file content hfile)
  directory entries hdir :=
    have ⟨entries', hdir'⟩ := h.directory entries hdir
    h'.directory entries' hdir'

theorem KeepsAt.of_none (h : t.get? names = none) : KeepsAt names t s where
  file _ hfile := nomatch h.symm.trans hfile
  directory _ hdir := nomatch h.symm.trans hdir

/-- Whether something stays depends only on what is there before and after. -/
theorem KeepsAt.congr {t' s' : FileTree} {names' : List String} (h : KeepsAt names' t' s')
    (ht : t.get? names = t'.get? names') (hs : s.get? names = s'.get? names') :
    KeepsAt names t s where
  file content hfile := hs.trans (h.file content (ht.symm.trans hfile))
  directory entries hdir :=
    have ⟨entries', hdir'⟩ := h.directory entries (ht.symm.trans hdir)
    ⟨entries', hs.trans hdir'⟩

/-- What is not below some names stays when something is put there. -/
theorem keepsAt_put {place : List String} (h : ¬place <+: names) (t new : FileTree) :
    KeepsAt names t (t.put place new) := by
  induction names generalizing t place with
  | nil =>
      cases place with
      | nil => exact absurd List.prefix_rfl h
      | cons name rest =>
          cases t with
          | file content => exact ⟨fun _ => id, nofun⟩
          | directory entries =>
              obtain ⟨entries', heq⟩ := put_directory entries name rest new
              exact ⟨nofun, fun _ _ => ⟨entries', congrArg some heq⟩⟩
  | cons m names ih =>
      cases place with
      | nil => exact absurd List.nil_prefix h
      | cons name rest =>
          cases t with
          | file content => exact .of_none rfl
          | directory entries =>
              have hput : ((directory entries).put (name :: rest) new).get? (m :: names)
                  = (if m = name then some (((entries.lookup name).getD ∅).put rest new)
                      else entries.lookup m).bind (·.get? names) := by
                rw [get?_cons, entry?_put]
              by_cases hm : m = name
              · subst hm
                have hrest : ¬rest <+: names := fun hp =>
                  h (List.cons_prefix_cons.mpr ⟨rfl, hp⟩)
                rw [if_pos rfl, Option.bind_some] at hput
                cases hentry : entries.lookup m with
                | none => exact .of_none (by rw [get?_cons, entry?_directory, hentry]; rfl)
                | some e =>
                    rw [hentry] at hput
                    exact (ih hrest e).congr (by rw [get?_cons, entry?_directory, hentry]; rfl) hput
              · rw [if_neg hm] at hput
                exact (Keeps.refl (directory entries) (m :: names)).congr rfl hput

/-- **Something new takes nothing away**: what is put where a tree has nothing
leaves all files and directories of that tree. -/
theorem Keeps.put (h : t.Keeps s) (hnew : t.get? names = none) (new : FileTree) :
    t.Keeps (s.put names new) := by
  intro found
  by_cases hp : names <+: found
  · obtain ⟨rest, rfl⟩ := hp
    exact .of_none (by rw [get?_append, hnew]; rfl)
  · exact (h found).trans (keepsAt_put hp s new)

/-! ## Following paths -/

theorem follow_eq_ok {step : Step} {found : List String} (h : t.follow names step = .ok found) :
    ∃ entries, t.get? names = some (directory entries) := by
  unfold follow at h
  split at h
  · exact nomatch h
  · exact nomatch h
  · exact ⟨_, ‹_›⟩

/-- A step from a directory goes where it goes from any directory. -/
theorem follow_congr {entries entries' : List (String × FileTree)}
    (h : t.get? names = some (directory entries)) (h' : s.get? names = some (directory entries'))
    (step : Step) : s.follow names step = t.follow names step := by
  simp only [follow, h, h']

theorem Keeps.foldlM_follow (h : t.Keeps s) {ss : List Step} {start found : List String}
    (hfold : ss.foldlM t.follow start = .ok found) : ss.foldlM s.follow start = .ok found := by
  induction ss generalizing start with
  | nil => exact hfold
  | cons step ss ih =>
      rw [List.foldlM_cons, bind_eq_ok_iff] at hfold ⊢
      obtain ⟨next, hstep, hrest⟩ := hfold
      obtain ⟨entries, hdir⟩ := follow_eq_ok hstep
      obtain ⟨entries', hdir'⟩ := (h start).directory entries hdir
      exact ⟨next, follow_congr hdir hdir' step ▸ hstep, ih hrest⟩

/-- A path still leads where it led. -/
theorem Keeps.locate (h : t.Keeps s) {path : String} (hpath : t.locate path = .ok names) :
    s.locate path = .ok names := by
  unfold FileTree.locate at hpath ⊢
  rw [bind_eq_ok_iff] at hpath ⊢
  obtain ⟨ss, hsteps, hfold⟩ := hpath
  exact ⟨ss, hsteps, h.foldlM_follow hfold⟩

theorem lookup_eq_ok_iff {path : String} {found : FileTree} :
    t.lookup path = .ok found ↔ ∃ names, t.locate path = .ok names ∧ t.get? names = some found := by
  rw [FileTree.lookup, bind_eq_ok_iff]
  refine exists_congr fun names => and_congr_right fun _ => ?_
  cases t.get? names with
  | none => exact ⟨nofun, nofun⟩
  | some d =>
      exact ⟨fun h => congrArg some (Except.ok.inj h), fun h => congrArg _ (Option.some.inj h)⟩

theorem read_eq_ok_iff {path text : String} :
    t.read path = .ok text ↔ t.lookup path = .ok (file text) := by
  rw [FileTree.read, bind_eq_ok_iff]
  constructor
  · rintro ⟨found, hfound, hcontent⟩
    cases found with
    | file content => exact hfound.trans (congrArg _ (congrArg file (Except.ok.inj hcontent)))
    | directory entries => exact nomatch hcontent
  · exact fun h => ⟨_, h, rfl⟩

/-- A file still has its content. -/
theorem Keeps.read (h : t.Keeps s) {path text : String} (hread : t.read path = .ok text) :
    s.read path = .ok text := by
  rw [read_eq_ok_iff, lookup_eq_ok_iff] at hread ⊢
  obtain ⟨names, hlocate, hfile⟩ := hread
  exact ⟨names, h.locate hlocate, (h names).file text hfile⟩

/-! ## Entries of a directory -/

/-- Whether a path leads to a directory at the end of some names. -/
def HasDirectory (t : FileTree) (path : String) (names : List String) : Prop :=
  t.locate path = .ok names ∧ ∃ entries, t.get? names = some (directory entries)

theorem Keeps.hasDirectory (h : t.Keeps s) {path : String} (hdir : t.HasDirectory path names) :
    s.HasDirectory path names :=
  have ⟨entries, hentries⟩ := hdir.2
  ⟨h.locate hdir.1, (h names).directory entries hentries⟩

theorem follow_down {entries : List (String × FileTree)}
    (h : t.get? names = some (directory entries)) (name : String) :
    t.follow names (.down name)
      = if maxNameLength < name.utf8ByteSize then .error .nameTooLong
        else .ok (names ++ [name]) := by
  simp only [follow, h]

/-- The path of an entry leads first to the directory. -/
theorem HasDirectory.steps_joinPath {directory : String} (h : t.HasDirectory directory names)
    (hname : IsEntryName name) {es : List Step}
    (hentry : steps (joinPath directory name) = .ok es) :
    ∃ init, es = init ++ [.down name] ∧ init.foldlM t.follow [] = .ok names := by
  obtain ⟨ss, hsteps, hfold⟩ := bind_eq_ok_iff.mp h.1
  obtain ⟨init, rfl, rfl | rfl⟩ := ServiceStubs.steps_joinPath hsteps hname hentry
  · exact ⟨_, rfl, hfold⟩
  · refine ⟨init, rfl, ?_⟩
    -- A step that stays ends where it starts.
    rw [List.foldlM_append, bind_eq_ok_iff] at hfold
    obtain ⟨found, hinit, hstay⟩ := hfold
    simp only [List.foldlM_cons, List.foldlM_nil, bind_pure] at hstay
    obtain ⟨entries, hdir⟩ := follow_eq_ok hstay
    simp only [follow, hdir] at hstay
    exact hinit.trans hstay

end FileTree

/-- Whether the path of an entry of a directory can be followed: it is not too
long, and neither is its last name. -/
structure CanHold (directory name : String) : Prop where
  steps : ∃ ss, steps (joinPath directory name) = .ok ss
  short : name.utf8ByteSize ≤ FileTree.maxNameLength

theorem isOk_iff {ε α : Type} {x : Except ε α} : x.isOk ↔ ∃ a, x = .ok a := by
  cases x with
  | error e => exact ⟨nofun, nofun⟩
  | ok a => exact ⟨fun _ => ⟨a, rfl⟩, fun _ => rfl⟩

instance (directory name : String) : Decidable (CanHold directory name) :=
  decidable_of_iff ((steps (joinPath directory name)).isOk ∧
      name.utf8ByteSize ≤ FileTree.maxNameLength)
    ⟨fun h => ⟨isOk_iff.mp h.1, h.2⟩, fun h => ⟨isOk_iff.mpr h.1, h.2⟩⟩

namespace FileTree

variable {t : FileTree} {names : List String} {directory name : String}

/-- **The path of an entry leads to the entry**, if it can be followed. -/
theorem locate_joinPath (hdir : t.HasDirectory directory names) (hname : IsEntryName name)
    {found : List String} :
    t.locate (joinPath directory name) = .ok found
      ↔ CanHold directory name ∧ found = names ++ [name] := by
  obtain ⟨entries, hentries⟩ := hdir.2
  rw [FileTree.locate, bind_eq_ok_iff]
  constructor
  · rintro ⟨es, hes, hfold⟩
    obtain ⟨init, rfl, hinit⟩ := hdir.steps_joinPath hname hes
    rw [List.foldlM_append, hinit] at hfold
    replace hfold : t.follow names (.down name) >>= pure = .ok found := hfold
    rw [bind_pure, follow_down hentries] at hfold
    split at hfold
    · exact nomatch hfold
    · exact ⟨⟨⟨_, hes⟩, Nat.not_lt.mp ‹_›⟩, (Except.ok.inj hfold).symm⟩
  · rintro ⟨⟨⟨es, hes⟩, hshort⟩, rfl⟩
    obtain ⟨init, rfl, hinit⟩ := hdir.steps_joinPath hname hes
    refine ⟨_, hes, ?_⟩
    rw [List.foldlM_append, hinit]
    change t.follow names (.down name) >>= pure = _
    rw [bind_pure, follow_down hentries, if_neg (Nat.not_lt.mpr hshort)]

/-! ## Making a directory -/

theorem isDirectory_of_foldlM {ss : List Step} {start : List String}
    {entries : List (String × FileTree)} (hdir : t.get? names = some (.directory entries))
    (h : ss.foldlM t.follow start = .ok names) :
    ∃ entries', t.get? start = some (.directory entries') := by
  cases ss with
  | nil => exact ⟨entries, Except.ok.inj h ▸ hdir⟩
  | cons step ss =>
      rw [List.foldlM_cons, bind_eq_ok_iff] at h
      exact follow_eq_ok h.choose_spec.1

theorem makeStep_eq {step : Step} {found : List String} (h : t.follow names step = .ok found)
    (last : Bool) : t.makeStep last names step = match t.get? found with
      | none => .ok (t.put found ∅, found)
      | some (.directory _) => .ok (t, found)
      | some (.file _) => .error (if last then .alreadyExists else .notDirectory) := by
  rw [makeStep, h]
  rfl

/-- Steps through directories that are there make nothing. -/
theorem makeSteps_append {init : List Step} {start : List String}
    {entries : List (String × FileTree)} (hdir : t.get? names = some (.directory entries))
    (h : init.foldlM t.follow start = .ok names) (rest : List Step) :
    t.makeSteps start (init ++ rest) = t.makeSteps names rest := by
  induction init generalizing start with
  | nil => rw [Except.ok.inj h, List.nil_append]
  | cons step init ih =>
      rw [List.foldlM_cons, bind_eq_ok_iff] at h
      obtain ⟨next, hstep, hrest⟩ := h
      obtain ⟨entries', hnext⟩ := isDirectory_of_foldlM hdir hrest
      rw [List.cons_append, makeSteps, makeStep_eq hstep, hnext]
      exact ih hrest

theorem makeDirs_eq (hdir : t.HasDirectory directory names) (hname : IsEntryName name)
    {es : List Step} (hes : steps (joinPath directory name) = .ok es) :
    t.makeDirs (joinPath directory name) = t.makeSteps names [.down name] := by
  obtain ⟨init, rfl, hinit⟩ := hdir.steps_joinPath hname hes
  obtain ⟨entries, hentries⟩ := hdir.2
  rw [makeDirs, hes]
  exact makeSteps_append hentries hinit _

/-- **Making the directory of an entry** puts an empty directory there, if there is
nothing, and leaves a directory as it is. -/
theorem makeDirs_joinPath (hdir : t.HasDirectory directory names) (hname : IsEntryName name)
    (hcan : CanHold directory name) :
    t.makeDirs (joinPath directory name) = match t.get? (names ++ [name]) with
      | none => (.ok (), t.put (names ++ [name]) ∅)
      | some (.directory _) => (.ok (), t)
      | some (.file _) => (.error .alreadyExists, t) := by
  obtain ⟨es, hes⟩ := hcan.steps
  obtain ⟨entries, hentries⟩ := hdir.2
  have hstep : t.follow names (.down name) = .ok (names ++ [name]) := by
    rw [follow_down hentries, if_neg (Nat.not_lt.mpr hcan.short)]
  rw [makeDirs_eq hdir hname hes, makeSteps, makeStep_eq hstep]
  rcases t.get? (names ++ [name]) with _ | _ | _ <;> rfl

/-- An entry whose directory was made can be followed. -/
theorem canHold_of_makeDirs (hdir : t.HasDirectory directory names) (hname : IsEntryName name)
    (h : (t.makeDirs (joinPath directory name)).1 = .ok ()) : CanHold directory name := by
  obtain ⟨entries, hentries⟩ := hdir.2
  cases hes : steps (joinPath directory name) with
  | error e => simp [makeDirs, hes] at h
  | ok es =>
      refine ⟨⟨es, hes⟩, Nat.not_lt.mp fun hlong => ?_⟩
      rw [makeDirs_eq hdir hname hes, makeSteps, makeStep, follow_down hentries,
        if_pos hlong] at h
      exact nomatch h

/-! ## Writing a file -/

/-- **Writing an entry** puts the file there, unless a directory is there. -/
theorem write_joinPath (hdir : t.HasDirectory directory names) (hname : IsEntryName name)
    (hcan : CanHold directory name) (content : String) :
    t.write (joinPath directory name) content = match t.get? (names ++ [name]) with
      | some (.directory _) => .error .isDirectory
      | _ => .ok (t.put (names ++ [name]) (.file content)) := by
  rw [FileTree.write, (locate_joinPath hdir hname).mpr ⟨hcan, rfl⟩]
  rfl

/-- An entry that was written can be followed. -/
theorem canHold_of_write (hdir : t.HasDirectory directory names) (hname : IsEntryName name)
    {content : String} {s : FileTree} (h : t.write (joinPath directory name) content = .ok s) :
    CanHold directory name := by
  obtain ⟨found, hlocate, -⟩ := bind_eq_ok_iff.mp h
  exact ((locate_joinPath hdir hname).mp hlocate).1

end FileTree

end ServiceStubs
