import Mathlib.Data.List.Infix
import UdevHidBpf.KernelTree
import UdevHidBpf.ListSplits

/-! # Edits of `meson.build`

What `from_kernel_tree` does to the lists of sources once it backports a file: the old names
leave `testing/meson.build`, the new one enters `stable/meson.build`. Files are lists of
lines, each with its newline. -/
namespace MesonEdits

open KernelTree ListSplits RadixText

/-- `str.isspace` of one character. -/
def isSpace (c : Char) : Bool :=
  let n := c.toNat
  (9 ≤ n && n ≤ 13) || (28 ≤ n && n ≤ 32) || (8192 ≤ n && n ≤ 8202) ||
    [133, 160, 5760, 8232, 8233, 8239, 8287, 12288].contains n

/-- `line.strip()` -/
def strip (line : Text) : Text := trimBy isSpace line

/-- `line.strip().strip("',")` -/
def listedFile (line : Text) : Text := trimBy ['\'', ','].contains (strip line)

def opening (tracing : Bool) : Text :=
  (if tracing then "tracing_sources = [" else "sources = [").toList

def opens (tracing : Bool) (line : Text) : Bool := (opening tracing).isPrefixOf (strip line)

def closes (line : Text) : Bool := strip line == [']']

def listLine (file : Text) : Text := "    '".toList ++ file ++ "',\n".toList

def mentions (files : List Text) (line : Text) : Bool :=
  files.any fun file => decide (file <:+: line)

/-- The loop over `testing/meson.build`: the lines kept, and `tracing_capable`. -/
def removeFiles (files : List Text) : Bool → Bool → List Text → List Text × Bool
  | _, tracingCapable, [] => ([], tracingCapable)
  | inTracing, tracingCapable, line :: lines =>
    let inTracing := if opens true line then true else inTracing
    let inTracing := if inTracing && closes line then false else inTracing
    if mentions files line then removeFiles files inTracing inTracing lines
    else
      let rest := removeFiles files inTracing tracingCapable lines
      (line :: rest.1, rest.2)

def sortFiles (files : List Text) : List Text := files.mergeSort fun a b => a ≤ b

/-- The loop over `stable/meson.build`, between the opening of the list and its end. -/
def insertFiles (tracing : Bool) : List Text → Bool → List Text → List Text
  | _, _, [] => []
  | stableFiles, found, line :: lines =>
    if opens tracing line then line :: insertFiles tracing stableFiles true lines
    else if found then
      if closes line then
        (sortFiles stableFiles).map listLine ++
          line :: insertFiles tracing (sortFiles stableFiles) false lines
      else insertFiles tracing (stableFiles ++ [listedFile line]) true lines
    else line :: insertFiles tracing stableFiles false lines

/-- The two files after the backport of one blob; `none` is an exception. For a shared header
`dest` is the path as a `str`, which has no `name`. -/
def backport (stable testing bpf : List Text) (kernelName : Text)
    (stableMeson testingMeson : List Text) : Option (List Text × List Text) := do
  let (stableMatches, testingMatches, inPlace) := gatherMatches stable testing bpf kernelName
  let dest ← importDest stableMatches inPlace kernelName
  let (testingMeson, tracingCapable) :=
    if testingMatches = [] then (testingMeson, false)
    else removeFiles testingMatches false false testingMeson
  let destName ← if inPlace then none else some dest
  some (insertFiles tracingCapable [destName] false stableMeson, testingMeson)

structure Entry where
  line : Text
  name : Text
  shown : strip line = '\'' :: name ++ "',".toList
  plain : ∀ c ∈ name, ['\'', ','].contains c = false

structure Block where
  tracing : Bool
  openLine : Text
  entries : List Entry
  closeLine : Text
  open_opens : opens tracing openLine
  close_closes : closes closeLine

structure OtherLine where
  line : Text
  opens_none : ∀ tracing, opens tracing line = false

structure MesonBuild where
  before : List OtherLine
  first : Block
  between : List OtherLine
  second : Block
  after : List OtherLine
  kinds : second.tracing = !first.tracing

def Block.names (b : Block) : List Text := b.entries.map Entry.name

def Block.linesOf (b : Block) (files : List Text) : List Text :=
  b.openLine :: files ++ [b.closeLine]

def Block.lines (b : Block) : List Text := b.linesOf (b.entries.map Entry.line)

def MesonBuild.linesWith (m : MesonBuild) (first second : List Text) : List Text :=
  m.before.map OtherLine.line ++ (first ++ (m.between.map OtherLine.line ++ (second ++
    m.after.map OtherLine.line)))

def MesonBuild.lines (m : MesonBuild) : List Text := m.linesWith m.first.lines m.second.lines

def MesonBuild.list (m : MesonBuild) (tracing : Bool) : Block :=
  if m.first.tracing = tracing then m.first else m.second

def MesonBuild.withFiles (m : MesonBuild) (tracing : Bool) (files : List Text) : List Text :=
  m.linesWith
    (if m.first.tracing = tracing then m.first.linesOf (files.map listLine) else m.first.lines)
    (if m.second.tracing = tracing then m.second.linesOf (files.map listLine) else m.second.lines)

def Block.tagged (b : Block) : List (Text × Option Text) :=
  (b.openLine, none) :: b.entries.map (fun e => (e.line, some e.name)) ++ [(b.closeLine, none)]

def MesonBuild.tagged (m : MesonBuild) : List (Text × Option Text) :=
  m.before.map (fun o => (o.line, none)) ++ (m.first.tagged ++
    (m.between.map (fun o => (o.line, none)) ++ (m.second.tagged ++
      m.after.map fun o => (o.line, none))))

def listsNone (files : List Text) (x : Text × Option Text) : Bool :=
  x.2.all fun name => !files.contains name

def MesonBuild.without (m : MesonBuild) (files : List Text) : List Text :=
  (m.tagged.filter (listsNone files)).map Prod.fst

theorem entry_listed (e : Entry) : listedFile e.line = e.name := by
  have hsplit : strip e.line = ['\''] ++ e.name ++ "',".toList := e.shown
  rw [listedFile, hsplit]
  refine trimBy_eq (by simp) (by simp) ?_ ?_
  · intro c hc
    exact e.plain c (List.mem_of_mem_head? hc)
  · intro c hc
    exact e.plain c (List.mem_of_getLast? hc)

theorem entry_opens (e : Entry) (tracing : Bool) : opens tracing e.line = false := by
  rw [opens, e.shown]
  cases tracing <;> rfl

theorem entry_closes (e : Entry) : closes e.line = false := by
  rw [closes, e.shown]
  rfl

theorem entry_mentions (e : Entry) {files : List Text} (h : e.name ∈ files) :
    mentions files e.line := by
  have hname : e.name <:+: strip e.line := by
    rw [e.shown]
    exact ⟨['\''], "',".toList, by simp⟩
  rw [mentions, List.any_eq_true]
  exact ⟨e.name, h, decide_eq_true (hname.trans (trimBy_isInfix _ _))⟩

theorem opens_prefix {tracing : Bool} {line : Text} (h : opens tracing line) :
    ∃ t, strip line = opening tracing ++ t := by
  rw [opens, List.isPrefixOf_iff_prefix] at h
  obtain ⟨t, ht⟩ := h
  exact ⟨t, ht.symm⟩

theorem block_opens (b : Block) (tracing : Bool) :
    opens tracing b.openLine = (b.tracing == tracing) := by
  obtain ⟨t, ht⟩ := opens_prefix b.open_opens
  rw [opens, ht]
  cases b.tracing <;> cases tracing <;> simp [opening, List.isPrefixOf]

theorem block_open_closes (b : Block) : closes b.openLine = false := by
  obtain ⟨t, ht⟩ := opens_prefix b.open_opens
  rw [closes, ht]
  cases b.tracing <;> rfl

theorem block_close_opens (b : Block) (tracing : Bool) : opens tracing b.closeLine = false := by
  have hclose : strip b.closeLine = [']'] := by simpa [closes] using b.close_closes
  rw [opens, hclose]
  cases tracing <;> rfl

section inserting

variable {tracing : Bool} {files : List Text}

theorem insert_others (others : List OtherLine) (rest : List Text) :
    insertFiles tracing files false (others.map OtherLine.line ++ rest) =
      others.map OtherLine.line ++ insertFiles tracing files false rest := by
  induction others with
  | nil => rfl
  | cons o others ih =>
    rw [List.map_cons, List.cons_append, insertFiles, if_neg (by simp [o.opens_none]),
      if_neg (by decide), ih]
    rfl

theorem insert_skipped (entries : List Entry) (rest : List Text) :
    insertFiles tracing files false (entries.map Entry.line ++ rest) =
      entries.map Entry.line ++ insertFiles tracing files false rest := by
  induction entries with
  | nil => rfl
  | cons e entries ih =>
    rw [List.map_cons, List.cons_append, insertFiles, if_neg (by simp [entry_opens]),
      if_neg (by decide), ih]
    rfl

theorem insert_gathered (entries : List Entry) (rest : List Text) :
    insertFiles tracing files true (entries.map Entry.line ++ rest) =
      insertFiles tracing (files ++ entries.map Entry.name) true rest := by
  induction entries generalizing files with
  | nil => simp
  | cons e entries ih =>
    rw [List.map_cons, List.cons_append, insertFiles, if_neg (by simp [entry_opens]), if_pos rfl,
      if_neg (by simp [entry_closes]), entry_listed, ih, List.append_assoc]
    rfl

theorem insert_other_block {b : Block} (hb : b.tracing ≠ tracing) (rest : List Text) :
    insertFiles tracing files false (b.lines ++ rest) =
      b.lines ++ insertFiles tracing files false rest := by
  have hopen : ¬ opens tracing b.openLine := by simp [block_opens, hb]
  have hclose : ¬ opens tracing b.closeLine := by simp [block_close_opens]
  rw [Block.lines, Block.linesOf, List.cons_append, List.cons_append, insertFiles, if_neg hopen,
    if_neg (by decide), List.append_assoc, insert_skipped, List.singleton_append, insertFiles,
    if_neg hclose, if_neg (by decide)]
  simp

theorem insert_own_block {b : Block} (hb : b.tracing = tracing) (rest : List Text) :
    insertFiles tracing files false (b.lines ++ rest) =
      b.linesOf ((sortFiles (files ++ b.names)).map listLine) ++
        insertFiles tracing (sortFiles (files ++ b.names)) false rest := by
  have hopen : opens tracing b.openLine := by simp [block_opens, hb]
  have hclose : ¬ opens tracing b.closeLine := by simp [block_close_opens]
  rw [Block.lines, Block.linesOf, List.cons_append, List.cons_append, insertFiles, if_pos hopen,
    List.append_assoc, insert_gathered, List.singleton_append, insertFiles, if_neg hclose,
    if_pos rfl, if_pos b.close_closes]
  simp [Block.linesOf, Block.names]

theorem insert_meson (m : MesonBuild) (file : Text) :
    insertFiles tracing [file] false m.lines =
      m.withFiles tracing (sortFiles (file :: (m.list tracing).names)) := by
  have hafter (files : List Text) : insertFiles tracing files false (m.after.map OtherLine.line)
      = m.after.map OtherLine.line := by
    have hothers : insertFiles tracing files false (m.after.map OtherLine.line ++ []) = _ :=
      insert_others m.after []
    rwa [List.append_nil, insertFiles, List.append_nil] at hothers
  rw [MesonBuild.lines, MesonBuild.linesWith, insert_others, MesonBuild.withFiles,
    MesonBuild.list]
  by_cases hfirst : m.first.tracing = tracing
  · have hsecond : m.second.tracing ≠ tracing := by
      rw [m.kinds, hfirst]
      simp
    rw [insert_own_block hfirst, insert_others, insert_other_block hsecond, hafter,
      if_pos hfirst, if_pos hfirst, if_neg hsecond]
    rfl
  · have hsecond : m.second.tracing = tracing := by
      rw [m.kinds]
      cases htracing : m.first.tracing <;> cases tracing <;> simp_all
    rw [insert_other_block hfirst, insert_others, insert_own_block hsecond, hafter,
      if_neg hfirst, if_neg hfirst, if_pos hsecond]
    rfl

end inserting

section removing

variable {files : List Text} {inTracing capable : Bool}

/-- Which lines are kept does not depend on the list that is open. -/
theorem remove_kept (lines : List Text) :
    (removeFiles files inTracing capable lines).1 =
      lines.filter fun line => !mentions files line := by
  induction lines generalizing inTracing capable with
  | nil => rfl
  | cons line lines ih =>
    rw [removeFiles]
    by_cases h : mentions files line
    · simp only [h, if_true, ih]
      rw [List.filter_cons_of_neg (by simp [h])]
    · simp only [h, if_false, ih, Bool.false_eq_true]
      rw [List.filter_cons_of_pos (by simp [h])]

theorem tagged_lines (m : MesonBuild) : m.tagged.map Prod.fst = m.lines := by
  simp [MesonBuild.tagged, MesonBuild.lines, MesonBuild.linesWith, Block.tagged, Block.lines,
    Block.linesOf, Function.comp_def]

theorem mentions_of_lists {m : MesonBuild} {x : Text × Option Text} (hx : x ∈ m.tagged)
    (hlists : listsNone files x = false) : mentions files x.1 := by
  have hblock : ∀ b : Block, x ∈ b.tagged → mentions files x.1 := by
    intro b hb
    simp only [Block.tagged, List.cons_append, List.mem_cons, List.mem_append, List.mem_map,
      List.not_mem_nil, or_false] at hb
    rcases hb with rfl | ⟨e, -, rfl⟩ | rfl
    · exact absurd hlists (by simp [listsNone])
    · exact entry_mentions e (by simpa [listsNone] using hlists)
    · exact absurd hlists (by simp [listsNone])
  have hother : ∀ others : List OtherLine,
      x ∈ others.map (fun o => ((o.line, none) : Text × Option Text)) → mentions files x.1 := by
    intro others hmem
    obtain ⟨o, -, rfl⟩ := List.mem_map.1 hmem
    exact absurd hlists (by simp [listsNone])
  simp only [MesonBuild.tagged, List.mem_append] at hx
  rcases hx with h | h | h | h | h
  · exact hother _ h
  · exact hblock _ h
  · exact hother _ h
  · exact hblock _ h
  · exact hother _ h

/-- No line but the entries of the files themselves has one of them in it. -/
def OnlyListed (m : MesonBuild) (files : List Text) : Prop :=
  ∀ x ∈ m.tagged, listsNone files x → ¬ mentions files x.1

theorem remove_meson_iff (m : MesonBuild) :
    (removeFiles files inTracing capable m.lines).1 = m.without files ↔ OnlyListed m files := by
  have hkept : (removeFiles files inTracing capable m.lines).1
      = (m.tagged.filter fun x => !mentions files x.1).map Prod.fst := by
    rw [remove_kept, ← tagged_lines, List.filter_map]
    rfl
  rw [hkept, MesonBuild.without]
  have hsub : ∀ x ∈ m.tagged, (!mentions files x.1) → listsNone files x := by
    intro x hx hno
    by_contra h
    have := mentions_of_lists hx (by simpa using h)
    rw [this] at hno
    cases hno
  constructor
  · intro h x hx hlists
    have hlen := congrArg List.length h
    rw [List.length_map, List.length_map] at hlen
    simpa using ListSplits.filter_of_length_eq hsub hlen x hx hlists
  · intro h
    congr 1
    refine List.filter_congr fun x hx => ?_
    cases hlists : listsNone files x with
    | true => simpa using h x hx hlists
    | false => simpa using mentions_of_lists hx hlists

theorem capable_others {others : List OtherLine} (hno : ∀ o ∈ others, ¬ mentions files o.line)
    (rest : List Text) :
    (removeFiles files false capable (others.map OtherLine.line ++ rest)).2 =
      (removeFiles files false capable rest).2 := by
  induction others with
  | nil => rfl
  | cons o others ih =>
    rw [List.map_cons, List.cons_append, removeFiles]
    simp only [o.opens_none, Bool.false_eq_true, if_false, Bool.false_and,
      hno o List.mem_cons_self]
    exact ih fun o ho => hno o (List.mem_cons_of_mem _ ho)

theorem capable_entries {entries : List Entry}
    (hno : ∀ e ∈ entries, e.name ∉ files → ¬ mentions files e.line) (rest : List Text) :
    (removeFiles files inTracing capable (entries.map Entry.line ++ rest)).2 =
      (removeFiles files inTracing
        (if ∃ e ∈ entries, e.name ∈ files then inTracing else capable) rest).2 := by
  induction entries generalizing capable with
  | nil => simp
  | cons e entries ih =>
    have hrest := fun e he => hno e (List.mem_cons_of_mem _ he)
    rw [List.map_cons, List.cons_append, removeFiles]
    simp only [entry_opens, entry_closes, Bool.false_eq_true, if_false, Bool.and_false,
      List.exists_mem_cons_iff]
    by_cases hmem : e.name ∈ files
    · simp only [entry_mentions e hmem, if_true, ih hrest, hmem, true_or, ite_self]
    · simp only [hno e List.mem_cons_self hmem, Bool.false_eq_true, if_false, ih hrest, hmem,
        false_or]

theorem capable_block {b : Block} (hopen : ¬ mentions files b.openLine)
    (hclose : ¬ mentions files b.closeLine)
    (hno : ∀ e ∈ b.entries, e.name ∉ files → ¬ mentions files e.line) (rest : List Text) :
    (removeFiles files false capable (b.lines ++ rest)).2 =
      (removeFiles files false
        (if ∃ e ∈ b.entries, e.name ∈ files then b.tracing else capable) rest).2 := by
  rw [Block.lines, Block.linesOf, List.cons_append, List.cons_append, removeFiles]
  simp only [block_opens, block_open_closes, Bool.and_false, hopen, Bool.false_eq_true, if_false,
    List.append_assoc]
  have htracing : (if (b.tracing == true) = true then true else false) = b.tracing := by
    cases b.tracing <;> rfl
  rw [htracing, capable_entries hno, List.singleton_append, removeFiles]
  simp only [block_close_opens, Bool.false_eq_true, if_false, b.close_closes, Bool.and_true,
    hclose]
  cases b.tracing <;> rfl

/-- The files were in this list of `testing/meson.build`; `sources` also takes what was in
none. -/
def HadList (m : MesonBuild) (files : List Text) (tracing : Bool) : Prop :=
  (∃ e ∈ (m.list tracing).entries, e.name ∈ files) ∨
    tracing = false ∧ ∀ t, ∀ e ∈ (m.list t).entries, e.name ∉ files

theorem other_tagged {m : MesonBuild} {o : OtherLine}
    (ho : o ∈ m.before ∨ o ∈ m.between ∨ o ∈ m.after) : (o.line, none) ∈ m.tagged := by
  have hmap {others : List OtherLine} (h : o ∈ others) :
      ((o.line, none) : Text × Option Text) ∈ others.map fun o => (o.line, none) :=
    List.mem_map.2 ⟨o, h, rfl⟩
  simp only [MesonBuild.tagged, List.mem_append]
  rcases ho with h | h | h
  · exact Or.inl (hmap h)
  · exact Or.inr (Or.inr (Or.inl (hmap h)))
  · exact Or.inr (Or.inr (Or.inr (Or.inr (hmap h))))

theorem entry_tagged {b : Block} {e : Entry} (he : e ∈ b.entries) :
    (e.line, some e.name) ∈ b.tagged := by
  rw [Block.tagged, List.mem_append, List.mem_cons]
  exact Or.inl (Or.inr (List.mem_map.2 ⟨e, he, rfl⟩))

section listed

variable {m : MesonBuild}

theorem OnlyListed.others (h : OnlyListed m files) {others : List OtherLine}
    (hothers : ∀ o ∈ others, o ∈ m.before ∨ o ∈ m.between ∨ o ∈ m.after) (rest : List Text) :
    (removeFiles files false capable (others.map OtherLine.line ++ rest)).2 =
      (removeFiles files false capable rest).2 :=
  capable_others (fun o ho => h _ (other_tagged (hothers o ho)) rfl) rest

theorem OnlyListed.block (h : OnlyListed m files) {b : Block}
    (hsub : ∀ x ∈ b.tagged, x ∈ m.tagged) (rest : List Text) :
    (removeFiles files false capable (b.lines ++ rest)).2 =
      (removeFiles files false
        (if ∃ e ∈ b.entries, e.name ∈ files then b.tracing else capable) rest).2 := by
  apply capable_block
  · exact h (_, none) (hsub _ (by simp [Block.tagged])) rfl
  · exact h (_, none) (hsub _ (by simp [Block.tagged])) rfl
  · intro e he hname
    exact h _ (hsub _ (entry_tagged he)) (by simpa [listsNone] using hname)

theorem capable_lines (h : OnlyListed m files) : (removeFiles files false false m.lines).2 =
    if ∃ e ∈ m.second.entries, e.name ∈ files then m.second.tracing
    else if ∃ e ∈ m.first.entries, e.name ∈ files then m.first.tracing else false := by
  have hend (capable : Bool) :
      (removeFiles files false capable (m.after.map OtherLine.line)).2 = capable := by
    have hothers : (removeFiles files false capable (m.after.map OtherLine.line ++ [])).2 = _ :=
      h.others (fun o ho => Or.inr (Or.inr ho)) []
    rwa [List.append_nil, removeFiles] at hothers
  rw [MesonBuild.lines, MesonBuild.linesWith, h.others fun o ho => Or.inl ho,
    h.block fun x hx => by simp [MesonBuild.tagged, hx],
    h.others fun o ho => Or.inr (Or.inl ho),
    h.block fun x hx => by simp [MesonBuild.tagged, hx], hend]

theorem capable_meson (h : OnlyListed m files) :
    HadList m files (removeFiles files false false m.lines).2 := by
  have hlist₁ : m.list m.first.tracing = m.first := if_pos rfl
  have hlist₂ : m.list m.second.tracing = m.second := by
    rw [MesonBuild.list, if_neg]
    rw [m.kinds]
    simp
  rw [capable_lines h]
  by_cases hsecond : ∃ e ∈ m.second.entries, e.name ∈ files
  · rw [if_pos hsecond]
    exact Or.inl (by rwa [hlist₂])
  rw [if_neg hsecond]
  by_cases hfirst : ∃ e ∈ m.first.entries, e.name ∈ files
  · rw [if_pos hfirst]
    exact Or.inl (by rwa [hlist₁])
  · rw [if_neg hfirst]
    refine Or.inr ⟨rfl, ?_⟩
    intro t e he hmem
    rw [MesonBuild.list] at he
    split at he
    · exact hfirst ⟨e, he, hmem⟩
    · exact hsecond ⟨e, he, hmem⟩

end listed

end removing

section backporting

variable (stable testing bpf : List Text) (kernelName : Text)

abbrev gathered : List Text × List Text × Bool :=
  gatherMatches stable testing bpf kernelName

/-- The command completes, `testing/meson.build` loses the entries of the old files and
nothing else, and the new file stands once in `stable/meson.build`, sorted into the list that
the old ones were in; a header changes neither list. -/
def EditsExactly (stableMeson testingMeson : MesonBuild) : Prop :=
  ∃ stable' testing', backport stable testing bpf kernelName
      stableMeson.lines testingMeson.lines = some (stable', testing') ∧
    testing' = testingMeson.without (gathered stable testing bpf kernelName).2.1 ∧
    if (gathered stable testing bpf kernelName).2.2 then stable' = stableMeson.lines
    else ∃ dest tracing files,
      importDest (gathered stable testing bpf kernelName).1 false kernelName = some dest ∧
      HadList testingMeson (gathered stable testing bpf kernelName).2.1 tracing ∧
      stable' = stableMeson.withFiles tracing files ∧ files.Pairwise (· ≤ ·) ∧
      files.Perm (dest :: (stableMeson.list tracing).names) ∧ files.count dest = 1 ∧
      dest ∉ (stableMeson.list !tracing).names

theorem sort_files_pairwise (files : List Text) : (sortFiles files).Pairwise (· ≤ ·) := by
  have htrans (a b c : Text) (hab : decide (a ≤ b) = true) (hbc : decide (b ≤ c) = true) :
      decide (a ≤ c) = true :=
    decide_eq_true ((of_decide_eq_true hab).trans (of_decide_eq_true hbc))
  have htotal (a b : Text) : (decide (a ≤ b) || decide (b ≤ a)) = true := by
    rw [Bool.or_eq_true, decide_eq_true_eq, decide_eq_true_eq]
    exact le_total a b
  exact (List.pairwise_mergeSort htrans htotal _).imp of_decide_eq_true

/-- The loop over `testing/meson.build`, which is left out when no file of `testing` matches. -/
def removed (files : List Text) (testingMeson : List Text) : List Text × Bool :=
  if files = [] then (testingMeson, false) else removeFiles files false false testingMeson

theorem backport_program {dest : Text} (stableMeson testingMeson : List Text)
    (hprogram : (gathered stable testing bpf kernelName).2.2 = false)
    (hdest : importDest (gathered stable testing bpf kernelName).1 false kernelName = some dest) :
    backport stable testing bpf kernelName stableMeson testingMeson =
      some (insertFiles (removed (gathered stable testing bpf kernelName).2.1 testingMeson).2 [dest]
          false stableMeson,
        (removed (gathered stable testing bpf kernelName).2.1 testingMeson).1) := by
  simp only [gathered] at hprogram hdest
  simp only [backport, removed, gathered, hprogram, hdest, Option.bind_eq_bind, Option.bind_some,
    Bool.false_eq_true, if_false]

theorem backport_header (stableMeson testingMeson : List Text)
    (hheader : (gathered stable testing bpf kernelName).2.2 = true) :
    backport stable testing bpf kernelName stableMeson testingMeson
      = none := by
  simp only [gathered] at hheader
  simp only [backport, hheader, Option.bind_eq_bind, if_true, Option.bind_none]
  cases importDest _ true kernelName <;> rfl

theorem without_nil (m : MesonBuild) : m.without [] = m.lines := by
  have hall : m.tagged.filter (listsNone []) = m.tagged := by
    rw [List.filter_eq_self]
    rintro ⟨line, file⟩ -
    cases file <;> rfl
  rw [MesonBuild.without, hall, tagged_lines]

theorem removed_meson_iff (m : MesonBuild) (files : List Text) :
    (removed files m.lines).1 = m.without files ↔ OnlyListed m files := by
  rw [removed]
  by_cases hnil : files = []
  · subst hnil
    rw [if_pos rfl, without_nil]
    refine iff_of_true rfl ?_
    intro x _ _
    simp [mentions]
  · rw [if_neg hnil, remove_meson_iff]

theorem removed_list {m : MesonBuild} {files : List Text} (h : OnlyListed m files) :
    HadList m files (removed files m.lines).2 := by
  rw [removed]
  by_cases hnil : files = []
  · subst hnil
    exact Or.inr ⟨rfl, fun t e _ hmem => absurd hmem List.not_mem_nil⟩
  · rw [if_neg hnil]
    exact capable_meson h

/-- A backport edits the two files as meant for a program whose old names stand nowhere in
`testing/meson.build` but in their own entries, and whose new name is not listed yet. -/
theorem backport_edits_iff (stableMeson testingMeson : MesonBuild) :
    EditsExactly stable testing bpf kernelName stableMeson testingMeson ↔
      (gathered stable testing bpf kernelName).2.2 = false ∧
      OnlyListed testingMeson (gathered stable testing bpf kernelName).2.1 ∧
      ∃ dest, importDest (gathered stable testing bpf kernelName).1 false kernelName = some dest ∧
        ∀ tracing, dest ∉ (stableMeson.list tracing).names := by
  constructor
  · rintro ⟨stable', testing', hrun, htesting, hstable⟩
    have hprogram : (gathered stable testing bpf kernelName).2.2 = false := by
      by_contra h
      rw [backport_header stable testing bpf kernelName _ _ (by simpa using h)] at hrun
      cases hrun
    rw [if_neg (by simp [hprogram])] at hstable
    obtain ⟨dest, tracing, files, hdest, -, -, -, hperm, hcount, hother⟩ := hstable
    rw [backport_program stable testing bpf kernelName _ _ hprogram hdest, Option.some.injEq,
      Prod.mk.injEq] at hrun
    refine ⟨hprogram, (removed_meson_iff _ _).1 (hrun.2.trans htesting), dest, hdest, ?_⟩
    intro t hmem
    rw [hperm.count_eq, List.count_cons_self] at hcount
    by_cases ht : t = tracing
    · subst ht
      exact List.count_eq_zero.1 (by omega) hmem
    · obtain rfl : t = !tracing := by
        cases t <;> cases tracing <;> simp_all
      exact hother hmem
  · rintro ⟨hprogram, honly, dest, hdest, hfresh⟩
    refine ⟨_, _, backport_program stable testing bpf kernelName _ _ hprogram hdest,
      (removed_meson_iff _ _).2 honly, ?_⟩
    rw [if_neg (by simp [hprogram])]
    refine ⟨dest, _, _, hdest, removed_list honly, insert_meson stableMeson dest,
      sort_files_pairwise _, List.mergeSort_perm _ _, ?_, hfresh _⟩
    rw [sortFiles, (List.mergeSort_perm _ _).count_eq, List.count_cons_self,
      List.count_eq_zero.2 (hfresh _)]

end backporting

/-- A `meson.build` with its two lists empty. -/
def emptyMeson : MesonBuild where
  before := []
  first := ⟨true, "tracing_sources = [\n".toList, [], "]\n".toList, by decide, by decide⟩
  between := []
  second := ⟨false, "sources = [\n".toList, [], "]\n".toList, by decide, by decide⟩
  after := []
  kinds := rfl

/-- A shared header does not get through. -/
theorem header_backport_fails :
    ¬ EditsExactly [] [] ["hid_bpf_helpers.h".toList] "hid_bpf_helpers.h".toList
      emptyMeson emptyMeson := by
  rintro ⟨stable', testing', hrun, -⟩
  have hheader : (gathered [] [] ["hid_bpf_helpers.h".toList]
      "hid_bpf_helpers.h".toList).2.2 = true := by
    have hnone (name : Text) : matchesOf [] name = [] := List.mergeSort_nil
    rw [gathered, gatherMatches, hnone, if_pos ⟨rfl, rfl, by decide, by decide⟩]
  rw [backport_header [] [] _ _ _ _ hheader] at hrun
  cases hrun

end MesonEdits
