import DocumentClient.Proofs.ScriptRuns

/-!
# Runs of a database

A database serves requests, each of them a command or a script. `Database.moments` takes a run
apart into the lines that were carried out, with what each of them found: the live store and the
working copy. `history_invariant` is the induction on runs: what every action and every new
request keep holds throughout, also as a relation to the moments before. `Always` says that a
property holds of all stores of a run, and `always_of_kept` that it is enough to look at the
statements. `live_below_current` does the same for a relation between stores: what leads from each
store to the next leads from all live stores of the past to the present one, also across working
copies that were dropped.
-/

namespace DocumentClient.Memory

/-- A moment of a run: how far it has come, and the action that is next. -/
structure Moment where
  before : Progress
  action : Progress.Action

/-- How far the run has come after the action. -/
def Moment.after (m : Moment) : Progress :=
  m.before.act m.action

/-- The statement of a moment, if it has one, keeps a property of the store it is applied to. -/
def Moment.Keeps (P : Store → Prop) (m : Moment) : Prop :=
  ∀ statement, m.action = .apply statement → P m.before.current →
    P (m.before.current.apply statement).2

/-- `Along Inv history moments` says that `Inv` relates each of the moments to those before it,
the first ones being `history`. -/
def Along (Inv : List Moment → Progress → Prop) : List Moment → List Moment → Prop
  | _, [] => True
  | history, m :: later => Inv history m.before ∧ Along Inv (history ++ [m]) later

section Along

variable {Inv : List Moment → Progress → Prop}

/-- An invariant holds along two histories if it does along the first and then along the second. -/
theorem along_append {history first second : List Moment} (hfirst : Along Inv history first)
    (hsecond : Along Inv (history ++ first) second) : Along Inv history (first ++ second) := by
  induction first generalizing history with
  | nil =>
      rw [List.append_nil] at hsecond
      exact hsecond
  | cons m first ih =>
      refine ⟨hfirst.1, ih hfirst.2 ?_⟩
      rw [List.append_assoc]
      exact hsecond

/-- Along a history, the invariant holds at every moment of it. -/
theorem Along.at {history earlier later : List Moment} {m : Moment}
    (h : Along Inv history (earlier ++ m :: later)) : Inv (history ++ earlier) m.before := by
  induction earlier generalizing history with
  | nil =>
      rw [List.append_nil]
      exact h.1
  | cons first earlier ih =>
      have hrest := ih h.2
      rw [List.append_assoc] at hrest
      exact hrest

end Along

namespace Progress

/-- The moments of lines, up to the first one that fails. -/
def moments (p : Progress) : List (List Char) → List Moment
  | [] => []
  | line :: lines =>
    ⟨p, .ofLine line⟩ ::
      match p.runLine line with
      | (.ok (), next) => next.moments lines
      | (.error _, _) => []

/-- What each action keeps holds along the lines of a script and at its end. -/
theorem moments_history {Inv : List Moment → Progress → Prop}
    (haction : ∀ history p action, Inv history p → Inv (history ++ [⟨p, action⟩]) (p.act action))
    (lines : List (List Char)) {history : List Moment} {p : Progress} (h : Inv history p) :
    Along Inv history (p.moments lines) ∧
      Inv (history ++ p.moments lines) (p.runLines lines).2 := by
  induction lines generalizing history p with
  | nil =>
      refine ⟨trivial, ?_⟩
      rw [moments, List.append_nil]
      exact h
  | cons line lines ih =>
      have hnext := haction history p (.ofLine line) h
      rw [← runLine_eq_act] at hnext
      rw [moments, runLines]
      rcases hline : p.runLine line with ⟨error | _, next⟩
      · rw [hline] at hnext
        exact ⟨⟨h, trivial⟩, hnext⟩
      · rw [hline] at hnext
        obtain ⟨halong, hend⟩ := ih hnext
        rw [List.append_assoc] at hend
        exact ⟨⟨h, halong⟩, hend⟩

end Progress

/-- A request to a database. -/
inductive Request where
  | command (text : String)
  | script (language text : String)

namespace Database

/-- The database after a request, whether the request succeeds or fails. -/
def serve (d : Database) : Request → Database
  | .command text => (d.runCommand text).2
  | .script language text => (d.runScript language text).2

/-- The database after requests one after another. -/
def serveAll (d : Database) (requests : List Request) : Database :=
  requests.foldl serve d

/-- The moments of a request. A command runs outside any transaction. -/
def momentsOf (d : Database) : Request → List Moment
  | .command text => [⟨.start d.store, .apply text.toList⟩]
  | .script language text =>
    if Text.eqIgnoringAsciiCase language "sql" then
      (Progress.start d.store).moments (scriptLines text.toList)
    else []

/-- The moments of requests one after another. -/
def moments (d : Database) : List Request → List Moment
  | [] => []
  | request :: requests => d.momentsOf request ++ (d.serve request).moments requests

/-- A command is applied to the store, whether it succeeds or fails. -/
theorem runCommand_store (d : Database) (text : String) :
    (d.runCommand text).2.store = (d.store.apply text.toList).2 := by
  rw [runCommand]
  rcases d.store.apply text.toList with ⟨_ | _ | _, store⟩ <;> rfl

section History

variable {Inv : List Moment → Progress → Prop}
variable (haction : ∀ history p action, Inv history p →
  Inv (history ++ [⟨p, action⟩]) (p.act action))
variable (hrequest : ∀ history p, Inv history p → Inv history (.start p.live))

include haction hrequest

/-- A request keeps an invariant that its steps keep, and so does what it leaves. -/
theorem momentsOf_history (request : Request) {history : List Moment} {d : Database}
    (h : Inv history (.start d.store)) :
    Along Inv history (d.momentsOf request) ∧
      Inv (history ++ d.momentsOf request) (.start (d.serve request).store) := by
  cases request with
  | command text =>
      have hnext := haction history (.start d.store) (.apply text.toList) h
      have hend := hrequest _ _ hnext
      have hlive := (Progress.applyStatement_live (p := .start d.store) text.toList rfl).1
      rw [Progress.act, hlive, Progress.start] at hend
      rw [serve, runCommand_store]
      exact ⟨⟨h, trivial⟩, hend⟩
  | script language text =>
      rw [serve, runScript_store, momentsOf]
      split
      · obtain ⟨halong, hend⟩ := Progress.moments_history haction (scriptLines text.toList) h
        exact ⟨halong, hrequest _ _ hend⟩
      · refine ⟨trivial, ?_⟩
        rw [List.append_nil]
        exact h

/-- What each action and each new request keep holds along all requests and at their end. -/
theorem history_invariant (requests : List Request) (history : List Moment) {d : Database}
    (h : Inv history (.start d.store)) :
    Along Inv history (d.moments requests) ∧
      Inv (history ++ d.moments requests) (.start (d.serveAll requests).store) := by
  induction requests generalizing history d with
  | nil =>
      refine ⟨trivial, ?_⟩
      rw [moments, List.append_nil]
      exact h
  | cons request requests ih =>
      obtain ⟨hfirst, hnext⟩ := momentsOf_history haction hrequest request h
      obtain ⟨hrest, hend⟩ := ih _ hnext
      rw [List.append_assoc] at hend
      exact ⟨along_append hfirst hrest, hend⟩

end History

/-! ## Properties of all stores -/

/-- A property holds of the live stores and the working copies before and after each line of a
run, and of the store at its end. -/
structure Always (P : Store → Prop) (d : Database) (requests : List Request) : Prop where
  before : ∀ m ∈ d.moments requests, m.before.Everywhere P
  after : ∀ m ∈ d.moments requests, m.after.Everywhere P
  final : P (d.serveAll requests).store

instance (P : Store → Prop) [DecidablePred P] (d : Database) (requests : List Request) :
    Decidable (d.Always P requests) :=
  decidable_of_iff ((∀ m ∈ d.moments requests, m.before.Everywhere P) ∧
      (∀ m ∈ d.moments requests, m.after.Everywhere P) ∧ P (d.serveAll requests).store)
    ⟨fun h => ⟨h.1, h.2.1, h.2.2⟩, fun h => ⟨h.before, h.after, h.final⟩⟩

/-- What holds always may be weakened. -/
theorem Always.mono {P Q : Store → Prop} {d : Database} {requests : List Request}
    (h : d.Always P requests) (himp : ∀ s, P s → Q s) : d.Always Q requests where
  before m hm := (h.before m hm).mono himp
  after m hm := (h.after m hm).mono himp
  final := himp _ h.final

/-- What holds always holds together. -/
theorem Always.and {P Q : Store → Prop} {d : Database} {requests : List Request}
    (hP : d.Always P requests) (hQ : d.Always Q requests) :
    d.Always (fun s => P s ∧ Q s) requests where
  before m hm := (hP.before m hm).and (hQ.before m hm)
  after m hm := (hP.after m hm).and (hQ.after m hm)
  final := ⟨hP.final, hQ.final⟩

/-- What is kept of the stores and the moments before them gives a property of all stores. -/
theorem always_of_history {Q : List Moment → Store → Prop} {P : Store → Prop} {d : Database}
    {requests : List Request} (hstart : Q [] d.store)
    (haction : ∀ history (p : Progress) action, p.Everywhere (Q history) →
      (p.act action).Everywhere (Q (history ++ [⟨p, action⟩])))
    (h : ∀ history, history <+: d.moments requests → ∀ s, Q history s → P s) :
    d.Always P requests := by
  obtain ⟨halong, hfinal⟩ := @history_invariant (fun history p => p.Everywhere (Q history))
    haction (fun _ _ hp => Progress.everywhere_start hp.live) requests [] d
    (Progress.everywhere_start hstart)
  have hmoment : ∀ m ∈ d.moments requests, ∃ earlier later,
      d.moments requests = earlier ++ [m] ++ later ∧ m.before.Everywhere (Q earlier) := by
    intro m hm
    obtain ⟨earlier, later, hsplit⟩ := List.append_of_mem hm
    rw [hsplit] at halong
    exact ⟨earlier, later, by rw [hsplit, List.append_assoc, List.singleton_append], halong.at⟩
  constructor
  case before =>
    intro m hm
    obtain ⟨earlier, later, hsplit, hbefore⟩ := hmoment m hm
    refine hbefore.mono (h earlier ?_)
    rw [hsplit, List.append_assoc]
    exact List.prefix_append _ _
  case after =>
    intro m hm
    obtain ⟨earlier, later, hsplit, hbefore⟩ := hmoment m hm
    refine (haction earlier m.before m.action hbefore).mono (h (earlier ++ [m]) ?_)
    rw [hsplit]
    exact List.prefix_append _ _
  case final => exact h _ (List.prefix_refl _) _ hfinal.live

/-- A property that the statements of a run keep holds of all its stores. -/
theorem always_of_kept {P : Store → Prop} {d : Database} {requests : List Request}
    (hstart : P d.store) (hkept : ∀ m ∈ d.moments requests, m.Keeps P) :
    d.Always P requests := by
  refine always_of_history (Q := fun history s => (∀ m ∈ history, m.Keeps P) → P s)
    (fun _ => hstart) (fun history p action hp => ?_)
    (fun history hinit s hs => hs fun m hm => hkept m (hinit.subset hm))
  have hnext : (∀ m ∈ history ++ [⟨p, action⟩], m.Keeps P) → (p.act action).Everywhere P := by
    intro hhistory
    have hnow : p.Everywhere P :=
      hp.mono fun s hs => hs fun m hm => hhistory m (List.mem_append_left _ hm)
    have hkeeps := hhistory ⟨p, action⟩ (List.mem_append_right _ (List.mem_singleton.mpr rfl))
    exact hnow.act fun statement h => hkeeps statement h hnow.current
  exact ⟨fun h => (hnext h).live, fun s hs h => (hnext h).working s hs⟩

end Database

/-! ## Stores of one line of descent -/

/-- The stores of a moment lie above the live stores of the past, and above the present one. -/
structure Progress.Descends (R : Store → Store → Prop) (history : List Moment) (p : Progress) :
    Prop where
  past : p.Everywhere fun s => ∀ m ∈ history, R m.before.live s
  live : p.Everywhere (R p.live)

section Descent

variable {R : Store → Store → Prop}

/-- The present live store can be counted among the past ones. -/
theorem Progress.Descends.everywhere {history : List Moment} {p : Progress}
    (h : p.Descends R history) (action : Action) :
    p.Everywhere fun s => ∀ m ∈ history ++ [⟨p, action⟩], R m.before.live s := by
  have hboth : ∀ s, (∀ m ∈ history, R m.before.live s) → R p.live s →
      ∀ m ∈ history ++ [⟨p, action⟩], R m.before.live s := by
    intro s hpast hpresent m hm
    rcases List.mem_append.mp hm with hold | hlast
    · exact hpast m hold
    · rw [List.mem_singleton.mp hlast]
      exact hpresent
  exact ⟨hboth _ h.past.live h.live.live,
    fun s hs => hboth s (h.past.working s hs) (h.live.working s hs)⟩

variable (hrefl : ∀ s, R s s) (htrans : ∀ s t u, R s t → R t u → R s u)
variable (happly : ∀ s statement, R s (Store.apply s statement).2)

include hrefl

/-- The live store descends from itself. -/
theorem Progress.Descends.start {history : List Moment} {p : Progress}
    (h : p.Descends R history) : (Progress.start p.live).Descends R history :=
  ⟨everywhere_start h.past.live, everywhere_start (hrefl p.live)⟩

include htrans happly

/-- After an action, the stores descend from those before it. -/
theorem Progress.Descends.act {history : List Moment} {p : Progress} {action : Action}
    (h : p.Descends R history) : (p.act action).Descends R (history ++ [⟨p, action⟩]) := by
  have hpast := h.everywhere action
  refine ⟨hpast.act fun statement _ m hm =>
    htrans _ _ _ (hpast.current m hm) (happly _ statement), hrefl _, fun s hs => ?_⟩
  -- A working copy is the live store when it is made, and goes up with every statement.
  cases action with
  | begin =>
      obtain rfl := Option.some.inj hs
      exact hrefl _
  | commit =>
      rw [Progress.act, commitTransaction] at hs
      split at hs
      · cases hs
      · next hnone => cases hnone.symm.trans hs
  | apply statement =>
      cases hworking : p.working with
      | none =>
          have hnone := (applyStatement_live statement hworking).2
          cases hnone.symm.trans hs
      | some t =>
          obtain ⟨hlive, hcopy⟩ := applyStatement_working statement hworking
          obtain rfl := Option.some.inj (hcopy.symm.trans hs)
          rw [Progress.act, hlive]
          exact htrans _ _ _ (h.live.working t hworking) (happly t statement)

/-- A preorder that every statement goes up in leads from all live stores of the past to the store
that is next to be changed. Working copies that were dropped need not lie below it. -/
theorem Database.live_below_current {d : Database} {requests : List Request}
    {earlier later : List Moment} {m : Moment}
    (hsplit : d.moments requests = earlier ++ m :: later) :
    ∀ past ∈ earlier ++ [m], R past.before.live m.before.current := by
  have hstart : (Progress.start d.store).Descends R [] :=
    ⟨Progress.everywhere_start fun _ hm => absurd hm List.not_mem_nil,
      Progress.everywhere_start (hrefl d.store)⟩
  have halong := (@history_invariant (fun history p => p.Descends R history)
    (fun history p action h => h.act hrefl htrans happly)
    (fun history p h => h.start hrefl) requests [] d hstart).1
  rw [hsplit] at halong
  exact (halong.at.everywhere m.action).current

end Descent

end DocumentClient.Memory
