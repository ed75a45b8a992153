import VaultShell.Proofs.Shell.WellFormed
import VaultShell.Proofs.Vault.Growth

/-!
# `mkdir -p` creates what is missing, or nothing

On the way down to a path `mkdir -p` comes first through directories that are there.  Then something
decides the outcome, and it can decide it only once.  If a file is in the way, nothing has been created
yet, and the command gives up.  If nothing is there, then nothing is beneath it either: from there on
every directory is missing, and each can be created, because the one created before it holds its place.

So a failure never comes after a creation, and a creation never fails.  Both need to know what the vault
is like between two rounds, and this is what the induction on the rest of the way carries: the last
directory that was come through is there, and once one was missing, it holds nothing.

## Main definitions

* `Shell.creations`: the directories that are created on the way, each with the state it is created in
* `Shell.MakesPath`: what the vault is afterwards

## Main statements

* `Shell.descends_of_missing`: once a directory is missing, everything beneath it is created
* `Shell.makeDown_cases`: a file is in the way, or what is missing is created
* `Shell.makePath_exact`: `mkdir -p` creates what is missing, or nothing
-/

namespace VaultShell

namespace Shell

/-- Those of some paths that nothing is at. -/
def missing (shell : Shell) (paths : List String) : List String :=
  paths.filter fun path => !shell.vault.has path

/-- **The directories that are created on the way down**, each with the state that it is created in. -/
def creations (shell : Shell) (above : String) : List String → List (Shell × String)
  | [] => []
  | name :: rest =>
    let path := above ++ "/" ++ name
    match shell.vault.find? path with
    | some (.directory ..) => creations shell path rest
    | some (.file ..) => []
    | none =>
      (shell, path) ::
        match shell.vault.createDirectory path shell.clock with
        | .error _ => []
        | .ok vault => creations (shell.withVault vault) path rest

/-- Where `makeDown` is on its way: its text leads to the names `done`, and all are names. -/
structure OnTheWay (above : String) (done names : List String) : Prop where
  leads : ∀ name, above ++ "/" ++ name = Path.render (done ++ [name])
  isName : ∀ name ∈ done ++ names, Path.IsName name

/-- **What comes of a descent** that no file is in the way of. -/
structure Descends (shell : Shell) (above : String) (names paths : List String)
    (after : Shell) : Prop where
  makeDown_eq : makeDown shell above names = (after, .ok paths)
  calls : (creations shell above names).map Prod.snd = paths
  /-- Every creation succeeds. -/
  created : ∀ call ∈ creations shell above names,
    ∃ vault, call.1.vault.createDirectory call.2 call.1.clock = .ok vault
  grown : Vault.Grown paths shell.clock shell.vault after.vault
  wellFormed : shell.vault.WellFormed → after.vault.WellFormed
  state_eq : after = shell.withVault after.vault

/-- **What `mkdir -p` makes of the vault** on the way to a path. -/
structure MakesPath (shell after : Shell) (path : String) (created : List String) : Prop where
  /-- The path and all that it leads through are directories. -/
  way : ∀ above, Path.Within path above → after.vault.isDirectory above = true
  /-- What was created is what was missing, the shortest path first. -/
  created_eq : created = shell.missing (Path.wayTo path)
  /-- What was created is new, with the time of the clock, and holds what comes next on the way. -/
  new : ∀ above ∈ created, ∃ name children, (Path.components above).getLast? = some name ∧
    after.vault.find? above = some (.directory ⟨name, .ofNewDirectory, shell.clock⟩ children) ∧
    Catalog.names children =
      ((Path.components path).drop (Path.components above).length).take 1
  /-- What was there shows what it showed. -/
  kept : ∀ other, shell.vault.has other = true →
    after.vault.bareAt? other = shell.vault.bareAt? other
  /-- Nothing else is new. -/
  others : ∀ other, (∀ above ∈ created, Path.components above ≠ Path.components other) →
    after.vault.bareAt? other = shell.vault.bareAt? other
  /-- Of the state only the vault has changed. -/
  state_eq : after = shell.withVault after.vault

variable {shell after : Shell} {path above name : String} {done names rest : List String}

/-! ## One round -/

namespace OnTheWay

theorem start (canonical : Path.IsCanonical path) :
    OnTheWay "" [] (Path.components path) where
  leads name := (Path.render_eq [name]).symm
  isName _ member := Path.isName_of_mem_components canonical member

theorem next (way : OnTheWay above done (name :: rest)) :
    OnTheWay (above ++ "/" ++ name) (done ++ [name]) rest where
  leads := Path.append_slash_eq_render way.leads name
  isName other member := way.isName other (by simpa using member)

theorem isName_next (way : OnTheWay above done (name :: rest)) :
    ∀ other ∈ done ++ [name], Path.IsName other :=
  fun other member => way.next.isName other (List.mem_append_left rest member)

theorem components_eq (way : OnTheWay above done (name :: rest)) :
    Path.components (above ++ "/" ++ name) = done ++ [name] := by
  rw [way.leads]
  exact Path.components_render way.isName_next

theorem isCanonical (way : OnTheWay above done (name :: rest)) :
    Path.IsCanonical (above ++ "/" ++ name) := by
  rw [way.leads]
  exact Path.isCanonical_render way.isName_next

theorem wayDown_eq (way : OnTheWay above done (name :: rest)) :
    Path.wayDown done (name :: rest) =
      (above ++ "/" ++ name) :: Path.wayDown (done ++ [name]) rest := by
  rw [Path.wayDown_cons, way.leads]

/-- **A directory that is missing can be created** if the one above it is there. -/
theorem exists_createDirectory (way : OnTheWay above done (name :: rest)) {vault : Vault}
    (held : vault.root.isDirectoryAt done = true) (free : vault.find? (above ++ "/" ++ name) = none)
    (time : Instant) :
    ∃ after, vault.createDirectory (above ++ "/" ++ name) time = .ok after ∧
      Vault.Grown [above ++ "/" ++ name] time vault after := by
  have hsplit : Path.split (above ++ "/" ++ name) = .ok (Path.render done, name) := by
    rw [way.leads]
    exact Path.split_render way.isName_next
  have holder : Path.canonicalComponents (Path.render done) = done :=
    Path.canonicalComponents_render fun other member =>
      way.isName_next other (List.mem_append_left _ member)
  rw [← holder] at held
  rw [Vault.find?, Path.components_eq_canonicalComponents way.isCanonical] at free
  obtain ⟨after, created⟩ := Vault.exists_create hsplit held free fun name => .newDirectory name time
  exact ⟨after, created, Vault.grown_createDirectory way.isCanonical created⟩

end OnTheWay

/-! ## The way down -/

/-- A directory that is there is come through. -/
theorem makeDown_of_directory {attributes : Attributes} {children : List (String × Node)}
    (found : shell.vault.find? (above ++ "/" ++ name) = some (.directory attributes children))
    (rest : List String) :
    makeDown shell above (name :: rest) = makeDown shell (above ++ "/" ++ name) rest ∧
      creations shell above (name :: rest) = creations shell (above ++ "/" ++ name) rest := by
  simp only [makeDown, creations, found, and_self]

/-- A directory that is missing is created, and the descent goes on from there. -/
theorem Descends.of_created {vault : Vault} {paths : List String}
    (free : shell.vault.find? (above ++ "/" ++ name) = none)
    (created : shell.vault.createDirectory (above ++ "/" ++ name) shell.clock = .ok vault)
    (grown : Vault.Grown [above ++ "/" ++ name] shell.clock shell.vault vault)
    (later : Descends (shell.withVault vault) (above ++ "/" ++ name) rest paths after) :
    Descends shell above (name :: rest) ((above ++ "/" ++ name) :: paths) after where
  makeDown_eq := by
    simp only [makeDown, free, created, later.makeDown_eq]
    rfl
  calls := by simp only [creations, free, created, List.map_cons, later.calls]
  created call member := by
    simp only [creations, free, created] at member
    rcases List.mem_cons.1 member with rfl | member
    · exact ⟨vault, created⟩
    · exact later.created call member
  grown := grown.trans later.grown
  wellFormed h := later.wellFormed (h.createDirectory created)
  state_eq := later.state_eq

/-- **Once a directory is missing, everything beneath it is created.**  The induction follows the way
down: the directory that has just been created holds the next place, and nothing is there yet. -/
theorem descends_of_missing (way : OnTheWay above done names)
    (held : shell.vault.root.isDirectoryAt done = true)
    (nothing : ∀ name ∈ names.head?, shell.vault.root.bareAt? (done ++ [name]) = none) :
    ∃ after, Descends shell above names (Path.wayDown done names) after := by
  induction names generalizing shell above done with
  | nil => exact ⟨shell, rfl, rfl, nofun, .refl shell.vault, id, rfl⟩
  | cons name rest ih =>
      have free : shell.vault.root.find? (done ++ [name]) = none :=
        Node.bareAt?_eq_none_iff.1 (nothing name rfl)
      have freePath : shell.vault.find? (above ++ "/" ++ name) = none := by
        rwa [Vault.find?, way.components_eq]
      obtain ⟨vault, created, grown⟩ := way.exists_createDirectory held freePath shell.clock
      have heldNext : vault.root.isDirectoryAt (done ++ [name]) = true := by
        rw [← way.components_eq]
        exact grown.isDirectory_of_mem List.mem_cons_self
      have nothingNext : ∀ next ∈ rest.head?, vault.root.bareAt? (done ++ [name] ++ [next]) = none := by
        intro next _
        have elsewhere : ∀ path ∈ [above ++ "/" ++ name],
            Path.components path ≠ done ++ [name] ++ [next] := by
          intro path member
          rw [List.mem_singleton.1 member, way.components_eq]
          simp
        rw [grown.same _ elsewhere, Node.bareAt?_eq_none_iff, Node.find?_append, free]
        rfl
      have further : ∃ after, Descends (shell.withVault vault) (above ++ "/" ++ name) rest
          (Path.wayDown (done ++ [name]) rest) after := ih way.next heldNext nothingNext
      obtain ⟨after, later⟩ := further
      rw [way.wayDown_eq]
      exact ⟨after, later.of_created freePath created grown⟩

/-- **A file is in the way, and nothing is done, or what is missing is created.**  The induction goes
through the directories that are there, to the first place where none is. -/
theorem makeDown_cases (way : OnTheWay above done names)
    (held : shell.vault.root.isDirectoryAt done = true) :
    (makeDown shell above names = (shell, .error .notDirectory) ∧ creations shell above names = [] ∧
      ∃ place ∈ Path.wayDown done names, shell.vault.kindAt? place = some .file) ∨
    ∃ after, Descends shell above names (shell.missing (Path.wayDown done names)) after ∧
      ∀ place ∈ Path.wayDown done names, after.vault.kindAt? place = some .directory := by
  induction names generalizing above done with
  | nil => exact Or.inr ⟨shell, ⟨rfl, rfl, nofun, .refl shell.vault, id, rfl⟩, nofun⟩
  | cons name rest ih =>
      cases found : shell.vault.find? (above ++ "/" ++ name) with
      | none =>
          -- Nothing has been created so far, and everything from here on is missing.
          have nothing : ∀ first ∈ (name :: rest).head?,
              shell.vault.root.bareAt? (done ++ [first]) = none := by
            intro first isFirst
            obtain rfl : name = first := by simpa using isFirst
            rw [← way.components_eq]
            exact Node.bareAt?_eq_none_iff.2 found
          obtain ⟨after, descends⟩ := descends_of_missing way held nothing
          have everything :
              shell.missing (Path.wayDown done (name :: rest)) = Path.wayDown done (name :: rest) := by
            refine List.filter_eq_self.2 fun place member => ?_
            rw [Vault.has_eq_false_iff.2 (descends.grown.free place member)]
            rfl
          refine Or.inr ⟨after, by rwa [everything], fun place member => ?_⟩
          exact Vault.isDirectory_eq_true_iff.1 (descends.grown.isDirectory_of_mem member)
      | some node =>
          have kind : shell.vault.kindAt? (above ++ "/" ++ name) = some node.kind :=
            congrArg (Option.map Node.kind) found
          rw [way.wayDown_eq]
          cases node with
          | file attributes content =>
              refine Or.inl ⟨?_, ?_, above ++ "/" ++ name, List.mem_cons_self, kind⟩
              · simp only [makeDown, found]
              · simp only [creations, found]
          | directory attributes children =>
              have heldNext : shell.vault.root.isDirectoryAt (done ++ [name]) = true := by
                rw [← way.components_eq]
                exact Vault.isDirectory_eq_true_iff.2 kind
              have passed : shell.missing ((above ++ "/" ++ name) :: Path.wayDown (done ++ [name]) rest) =
                  shell.missing (Path.wayDown (done ++ [name]) rest) :=
                List.filter_cons_of_neg (by simp [Vault.has, found])
              obtain ⟨goesOn, callsOn⟩ := makeDown_of_directory found rest
              rcases ih way.next heldNext with
                ⟨refused, uncalled, place, member, file⟩ | ⟨after, descends, directories⟩
              · exact Or.inl ⟨goesOn.trans refused, callsOn.trans uncalled, place,
                  List.mem_cons_of_mem _ member, file⟩
              · refine Or.inr ⟨after, ?_, ?_⟩
                · rw [passed]
                  exact ⟨goesOn.trans descends.makeDown_eq, callsOn ▸ descends.calls,
                    callsOn ▸ descends.created, descends.grown, descends.wellFormed, descends.state_eq⟩
                · intro place member
                  rcases List.mem_cons.1 member with rfl | member
                  · exact descends.grown.kindAt?_eq_some kind
                  · exact directories place member

/-- Where everything is there, nothing is done. -/
theorem makeDown_of_directories (way : OnTheWay above done names)
    (there : ∀ place ∈ Path.wayDown done names, shell.vault.kindAt? place = some .directory) :
    makeDown shell above names = (shell, .ok []) := by
  induction names generalizing above done with
  | nil => rfl
  | cons name rest ih =>
      rw [way.wayDown_eq] at there
      have first := Vault.isDirectory_eq_true_iff.2 (there _ List.mem_cons_self)
      obtain ⟨attributes, children, found⟩ := Node.isDirectoryAt_eq_true.1 first
      rw [(makeDown_of_directory found rest).1]
      exact ih way.next fun place member => there place (List.mem_cons_of_mem _ member)

/-! ## Whole paths -/

/-- The way to a path has everything that the path leads through, the root apart, which is always
there. -/
theorem isDirectory_of_within (wellFormed : shell.vault.WellFormed) (canonical : Path.IsCanonical path)
    (there : ∀ place ∈ Path.wayTo path, shell.vault.kindAt? place = some .directory)
    (within : Path.Within path above) : shell.vault.isDirectory above = true := by
  by_cases top : Path.components above = []
  · show shell.vault.root.isDirectoryAt (Path.components above) = true
    rw [top]
    exact wellFormed.isDirectory
  · have isName : ∀ name ∈ Path.components above, Path.IsName name := fun name member =>
      Path.isName_of_mem_components canonical (within.subset member)
    have same := Path.components_render isName
    have onTheWay : Path.render (Path.components above) ∈ Path.wayTo path := by
      rw [Path.mem_wayTo canonical, Path.Within, same]
      exact ⟨Path.isCanonical_render isName, top, within⟩
    have directory := there _ onTheWay
    rw [Vault.kindAt?, same] at directory
    exact Vault.isDirectory_eq_true_iff.2 directory

/-- **What lies in a new directory is what comes next on the way.**  Nothing was beneath it before, so
what is there now was created. -/
theorem comes_next_iff (canonical : Path.IsCanonical path)
    (grown : Vault.Grown (shell.missing (Path.wayTo path)) shell.clock shell.vault after.vault)
    (there : after.vault.isDirectory path = true) (member : above ∈ shell.missing (Path.wayTo path))
    (next : String) :
    next ∈ ((Path.components path).drop (Path.components above).length).take 1 ↔
      ∃ seen, after.vault.root.bareAt? (Path.components above ++ [next]) = some seen := by
  have onTheWay : ∀ place ∈ shell.missing (Path.wayTo path), Path.Within path place := by
    intro place created
    exact ((Path.mem_wayTo canonical).1 (List.mem_filter.1 created).1).2.2
  obtain ⟨rest, hrest⟩ := onTheWay above member
  have first : next ∈ rest.take 1 ↔ [next] <+: rest := by
    cases rest <;> simp [eq_comm]
  rw [← hrest, List.drop_left, first, ← List.prefix_append_right_inj (Path.components above), hrest]
  constructor
  · intro begins
    have directory := Node.isDirectoryAt_of_prefix there begins
    obtain ⟨_, _, held⟩ := Node.isDirectoryAt_eq_true.1 directory
    exact ⟨_, congrArg (Option.map Node.bare) held⟩
  · rintro ⟨seen, held⟩
    -- If it does not come next on the way, then it was not created, and was there before.
    by_contra elsewhere
    have old : ∀ place ∈ shell.missing (Path.wayTo path),
        Path.components place ≠ Path.components above ++ [next] := by
      intro place created same
      exact elsewhere (same ▸ onTheWay place created)
    have free := Node.bareAt?_eq_none_iff.1 (grown.free above member)
    rw [grown.same _ old, Node.bareAt?, Node.find?_append, free] at held
    cases held

/-- **A descent along the whole way makes the path.** -/
theorem Descends.makesPath (wellFormed : shell.vault.WellFormed) (canonical : Path.IsCanonical path)
    (descends : Descends shell "" (Path.components path) (shell.missing (Path.wayTo path)) after)
    (directories : ∀ place ∈ Path.wayTo path, after.vault.kindAt? place = some .directory) :
    MakesPath shell after path (shell.missing (Path.wayTo path)) := by
  have grown := descends.grown
  have wellFormedAfter := descends.wellFormed wellFormed
  have way : ∀ above, Path.Within path above → after.vault.isDirectory above = true :=
    fun above => isDirectory_of_within wellFormedAfter canonical directories
  refine
    { way
      created_eq := rfl
      new := ?_
      kept := ?_
      others := fun other elsewhere => grown.same _ elsewhere
      state_eq := descends.state_eq }
  · intro above member
    obtain ⟨name, last, bare⟩ := grown.new above member
    obtain ⟨node, found, isNew⟩ := Option.map_eq_some_iff.1 bare
    cases node with
    | file attributes content => cases isNew
    | directory attributes children =>
        obtain rfl : attributes = ⟨name, .ofNewDirectory, shell.clock⟩ := by
          injection isNew
        refine ⟨name, children, last, found, ?_⟩
        refine wellFormedAfter.tree.names_eq found (List.length_take_le 1 _) ?_
        exact comes_next_iff canonical grown (way path (List.prefix_refl _)) member
  · intro other there
    obtain ⟨seen, found⟩ := Vault.has_eq_true_iff.1 there
    rw [found]
    exact grown.kept found

/-- **`mkdir -p` creates what is missing, or nothing.**  In a well-formed vault and for any operand: it
fails if and only if a file is in the way, and then nothing was created; otherwise it has created just
what was missing, and would create nothing if it were run again.  No creation on the way fails. -/
theorem makePath_exact (wellFormed : shell.vault.WellFormed) (operand : String) :
    let path := shell.resolve operand
    let outcome := shell.makePath operand
    let calls := creations shell "" (Path.components path)
    (∀ fault, outcome.2 = .error fault → outcome.1 = shell ∧ fault = .notDirectory ∧ calls = []) ∧
    ((∃ fault, outcome.2 = .error fault) ↔
      ∃ above ∈ Path.wayTo path, shell.vault.kindAt? above = some .file) ∧
    (∀ created, outcome.2 = .ok created →
      MakesPath shell outcome.1 path created ∧ calls.map Prod.snd = created ∧
        outcome.1.makePath operand = (outcome.1, .ok [])) ∧
    ∀ call ∈ calls, ∃ vault, call.1.vault.createDirectory call.2 call.1.clock = .ok vault := by
  intro path outcome calls
  have canonical : Path.IsCanonical path := Path.isCanonical_resolve shell.cwd operand
  have way := OnTheWay.start canonical
  rcases makeDown_cases way wellFormed.isDirectory with
    ⟨refused, uncalled, inTheWay⟩ | ⟨after, descends, directories⟩
  · have refused : outcome = (shell, .error .notDirectory) := refused
    have uncalled : calls = [] := uncalled
    rw [refused, uncalled]
    refine ⟨?_, iff_of_true ⟨_, rfl⟩ inTheWay, nofun, nofun⟩
    intro fault failed
    exact ⟨rfl, (Except.error.inj failed).symm, rfl⟩
  · have made : outcome = (after, .ok _) := descends.makeDown_eq
    rw [made]
    refine ⟨nofun, iff_of_false nofun ?_, ?_, descends.created⟩
    · rintro ⟨above, onTheWay, file⟩
      -- A file that was there is there, but everything on the way is a directory now.
      have kept : after.vault.kindAt? above = some .file := descends.grown.kindAt?_eq_some file
      rw [directories above onTheWay] at kept
      cases kept
    · intro created reported
      obtain rfl := Except.ok.inj reported
      refine ⟨descends.makesPath wellFormed canonical directories, descends.calls, ?_⟩
      have same : after.resolve operand = path := by
        rw [descends.state_eq]
        rfl
      show makeDown after "" (Path.components (after.resolve operand)) = _
      rw [same]
      exact makeDown_of_directories way directories

/-- Of two directories that are missing, the first holds the second. -/
theorem makePath_exact_initial :
    let shell := Settings.standard.start
    (shell.makePath "vault/a/b").2 = .ok ["/vault/a", "/vault/a/b"] ∧
      ∃ name children, (shell.makePath "vault/a/b").1.vault.find? "/vault/a" =
          some (.directory ⟨name, .ofNewDirectory, shell.clock⟩ children) ∧
        Catalog.names children = ["b"] := by
  intro shell
  have wellFormed : shell.vault.WellFormed :=
    Vault.wellFormed_initial Settings.standard.epochOrOrigin
  have reported : (shell.makePath "vault/a/b").2 = .ok ["/vault/a", "/vault/a/b"] := by
    decide +kernel
  obtain ⟨-, -, made, -⟩ := makePath_exact wellFormed "vault/a/b"
  obtain ⟨makes, -, -⟩ := made _ reported
  obtain ⟨name, children, -, found, names⟩ := makes.new "/vault/a" List.mem_cons_self
  have next : ((Path.components (shell.resolve "vault/a/b")).drop
      (Path.components "/vault/a").length).take 1 = ["b"] := by decide +kernel
  exact ⟨reported, name, children, found, names.trans next⟩

end Shell

end VaultShell
