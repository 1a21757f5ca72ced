import Mathlib.Data.List.Forall2
import SentenceScript.Proofs.Feeding

namespace SentenceScript

open SentenceScript.Action Text

def Connection.undated (c : Connection) : Connection := { c with connectedAt := .epoch }

def ModelRequest.undated (r : ModelRequest) : ModelRequest := { r with timestamp := .epoch }

def ModelReply.undated (r : ModelReply) : ModelReply :=
  { r with timestamp := .epoch, request := r.request.undated }

namespace Servers

/-- The connections by their keys, without their times. -/
def undated (s : Servers) : List (String × Connection) := s.entries.map (Prod.map id (·.undated))

variable {s t : Servers} {c d : Connection}

theorem map_insertIn (key : String) (c : Connection) (l : List (String × Connection)) :
    (insertIn key c l).map (Prod.map id (·.undated)) =
      insertIn key c.undated (l.map (Prod.map id (·.undated))) := by
  fun_induction insertIn key c l with
  | case1 => rfl
  | case2 k d rest hlt => simp [insertIn, hlt]
  | case3 d rest hlt => simp [insertIn]
  | case4 k d rest hlt hne ih => simp [insertIn, hlt, hne, ih]

theorem undated_insert (h : s.undated = t.undated) (hc : c.undated = d.undated) (key : String) :
    (s.insert key c).undated = (t.insert key d).undated := by
  simp only [undated, insert, map_insertIn] at h ⊢
  rw [h, hc]

theorem undated_erase (h : s.undated = t.undated) (key : String) :
    (s.erase key).undated = (t.erase key).undated := by
  have he (s : Servers) : (s.erase key).undated = s.undated.filter (·.1 != key) := by
    simp only [undated, erase, List.filter_map]
    rfl
  rw [he, he, h]

theorem undated_get? (h : s.undated = t.undated) (key : String) :
    (s.get? key).map (·.undated) = (t.get? key).map (·.undated) := by
  have hl (l : List (String × Connection)) :
      (l.map (Prod.map id (·.undated))).lookup key = (l.lookup key).map (·.undated) := by
    induction l with
    | nil => rfl
    | cons e rest ih =>
        obtain ⟨k, c⟩ := e
        simp only [List.map_cons, Prod.map_apply, id_eq, List.lookup_cons]
        cases key == k with
        | true => rfl
        | false => exact ih
  rw [get?, get?, ← hl, ← hl]
  exact congrArg (List.lookup key) h

end Servers

/-- A piece of a log: a line that stands as it is, or the lines that show a message sent. -/
inductive LogPiece where
  | line (text : String)
  | message (model : String) (prompt : Option String) (text : String)

/-- Only the texts of a message are cut at the preview length. -/
def LogPiece.lines (limit : Nat) : LogPiece → List String
  | line text => [text]
  | message model prompt text =>
      ("Sending message to " ++ model ++ "...") ::
        ((prompt.filter (!·.isEmpty)).toList.map (fun p => "System: " ++ preview p limit) ++
          ["User: " ++ preview text limit])

/-- Two logs of the same pieces, under two preview lengths. -/
def SamePieces (limit limit' : Nat) (a b : List String) : Prop :=
  ∃ pieces : List LogPiece,
    a = pieces.flatMap (·.lines limit) ∧ b = pieces.flatMap (·.lines limit')

/-- Two lines of the same text, which is cut only if it is that of a message. -/
inductive SameLine (limit limit' : Nat) : String → String → Prop
  | same (text) : SameLine limit limit' text text
  | system (text) :
      SameLine limit limit' ("System: " ++ preview text limit) ("System: " ++ preview text limit')
  | user (text) :
      SameLine limit limit' ("User: " ++ preview text limit) ("User: " ++ preview text limit')

namespace SamePieces

variable {limit limit' : Nat} {a b : List String}

theorem nil : SamePieces limit limit' [] [] := ⟨[], rfl, rfl⟩

theorem append {a' b' : List String} (h : SamePieces limit limit' a b)
    (h' : SamePieces limit limit' a' b') : SamePieces limit limit' (a ++ a') (b ++ b') := by
  obtain ⟨pieces, rfl, rfl⟩ := h
  obtain ⟨pieces', rfl, rfl⟩ := h'
  exact ⟨pieces ++ pieces', List.flatMap_append.symm, List.flatMap_append.symm⟩

theorem piece (p : LogPiece) : SamePieces limit limit' (p.lines limit) (p.lines limit') :=
  ⟨[p], by simp, by simp⟩

theorem refl (lines : List String) : SamePieces limit limit' lines lines := by
  induction lines with
  | nil => exact nil
  | cons line rest ih => exact append (piece (.line line)) ih

theorem eq (h : SamePieces limit limit a b) : a = b := by
  obtain ⟨pieces, rfl, rfl⟩ := h
  rfl

end SamePieces

theorem LogPiece.lines_sameLine (limit limit' : Nat) (p : LogPiece) :
    List.Forall₂ (SameLine limit limit') (p.lines limit) (p.lines limit') := by
  cases p with
  | line text => exact .cons (.same text) .nil
  | message model prompt text =>
      refine .cons (.same _) ?_
      cases prompt.filter (!·.isEmpty) with
      | none => exact .cons (.user text) .nil
      | some prompt => exact .cons (.system prompt) (.cons (.user text) .nil)

theorem SamePieces.sameLine {limit limit' : Nat} {a b : List String}
    (h : SamePieces limit limit' a b) : List.Forall₂ (SameLine limit limit') a b := by
  obtain ⟨pieces, rfl, rfl⟩ := h
  induction pieces with
  | nil => exact .nil
  | cons p rest ih => exact List.rel_append (p.lines_sameLine limit limit') ih

/-- Two states that differ only in their times, and in how far their logs show messages. -/
structure State.Mirrors (limit limit' : Nat) (s t : State) : Prop where
  bindings : s.bindings = t.bindings
  tasks : s.tasks = t.tasks
  loop : s.loop = t.loop
  endpoint : s.endpoint = t.endpoint
  response : s.response = t.response
  servers : s.servers.undated = t.servers.undated
  request : s.request.map (·.undated) = t.request.map (·.undated)
  reply : s.reply.map (·.undated) = t.reply.map (·.undated)
  log : SamePieces limit limit' s.log t.log

/-- Two worlds with the same cap, whose services give the same answers but for their times, and do not
look at the time of a request. -/
structure World.Twin (world world' : World) : Prop where
  maxPasses : world.settings.maxPasses = world'.settings.maxPasses
  search : world.services.search = world'.services.search
  connect (url protocol : String) : (world.services.connect url protocol).map (·.undated) =
    (world'.services.connect url protocol).map (·.undated)
  disconnect : world.services.disconnect = world'.services.disconnect
  complete (r r' : ModelRequest) (h : r.undated = r'.undated) :
    world.services.complete r = world'.services.complete r'

namespace Action

variable {limit limit' : Nat} {α β : Type}

/-- Both succeed with related results, or both fail with the same failure, in states that mirror each
other. -/
inductive EndAlike (limit limit' : Nat) (V : α → α → Prop) :
    EStateM.Result Failure State α → EStateM.Result Failure State α → Prop
  | ok (a b s t) (hv : V a b) (h : State.Mirrors limit limit' s t) :
      EndAlike limit limit' V (.ok a s) (.ok b t)
  | error (e s t) (h : State.Mirrors limit limit' s t) :
      EndAlike limit limit' V (.error e s) (.error e t)

/-- Two actions that end alike from states that mirror each other. -/
def Mirrored (limit limit' : Nat) (V : α → α → Prop) (x y : Action α) : Prop :=
  ∀ s t, State.Mirrors limit limit' s t → EndAlike limit limit' V (x s) (y t)

/-- An action that does the same in states that mirror each other. -/
def Steady (limit limit' : Nat) (x : Action α) : Prop := Mirrored limit limit' Eq x x

section Rules

variable {V : α → α → Prop} {W : β → β → Prop} {x y : Action α} {f g : α → Action β}

theorem pure_mirrored {a b : α} (h : V a b) : Mirrored limit limit' V (pure a) (pure b) :=
  fun s t hs => .ok a b s t h hs

theorem pure_steady (a : α) : Steady limit limit' (pure a) := pure_mirrored rfl

theorem fail_mirrored (e : Failure) : Mirrored limit limit' V (throw e) (throw e) :=
  fun s t hs => .error e s t hs

theorem Mirrored.bind (hx : Mirrored limit limit' V x y)
    (hf : ∀ a b, V a b → Mirrored limit limit' W (f a) (g b)) :
    Mirrored limit limit' W (x >>= f) (y >>= g) := by
  intro s t h
  have hr := hx s t h
  generalize hs : x s = r, ht : y t = r' at hr
  cases hr with
  | ok a b s' t' hv h' =>
      rw [bind_ok hs, bind_ok ht]
      exact hf a b hv s' t' h'
  | error e s' t' h' =>
      rw [bind_error hs, bind_error ht]
      exact .error e s' t' h'

theorem Steady.bind (hx : Steady limit limit' x)
    (hf : ∀ a, Mirrored limit limit' W (f a) (g a)) :
    Mirrored limit limit' W (x >>= f) (x >>= g) := by
  refine Mirrored.bind hx fun a b h => ?_
  cases h
  exact hf a

theorem Mirrored.seq {x y : Action Unit} {x' y' : Action β} (hx : Mirrored limit limit' Eq x y)
    (hy : Mirrored limit limit' W x' y') :
    Mirrored limit limit' W (x >>= fun _ => x') (y >>= fun _ => y') :=
  hx.bind fun _ _ _ => hy

theorem look_mirrored {f g : State → Action β}
    (h : ∀ s t, State.Mirrors limit limit' s t → Mirrored limit limit' W (f s) (g t)) :
    Mirrored limit limit' W (get >>= f) (get >>= g) :=
  fun s t hs => h s t hs s t hs

theorem change_mirrored {f g : State → State}
    (h : ∀ s t, State.Mirrors limit limit' s t → State.Mirrors limit limit' (f s) (g t)) :
    Mirrored limit limit' Eq (modify f) (modify g) :=
  fun s t hs => .ok () () _ _ rfl (h s t hs)

theorem rescue_mirrored {x y : Action Unit} {f g : Failure → Action Unit}
    (hx : Mirrored limit limit' Eq x y) (hf : ∀ e, Mirrored limit limit' Eq (f e) (g e)) :
    Mirrored limit limit' Eq (tryCatch x f) (tryCatch y g) := by
  intro s t h
  have hr := hx s t h
  generalize hs : x s = r, ht : y t = r' at hr
  cases hr with
  | ok a b s' t' hv h' =>
      rw [tryCatch_ok hs, tryCatch_ok ht]
      exact .ok a b s' t' hv h'
  | error e s' t' h' =>
      rw [tryCatch_error hs, tryCatch_error ht]
      exact hf e s' t' h'

end Rules

section Steps

theorem piece_mirrored (p : LogPiece) :
    Mirrored limit limit' Eq (sayAll (p.lines limit)) (sayAll (p.lines limit')) :=
  change_mirrored fun _ _ h => { h with log := h.log.append (.piece p) }

theorem sayAll_steady (lines : List String) : Steady limit limit' (sayAll lines) :=
  change_mirrored fun _ _ h => { h with log := h.log.append (.refl lines) }

theorem say_steady (line : String) : Steady limit limit' (say line) := sayAll_steady [line]

theorem assign_steady (name : String) (value : Value) : Steady limit limit' (assign name value) :=
  change_mirrored fun _ _ h => { h with bindings := by rw [State.assign, h.bindings]; rfl }

theorem ofExcept_steady (result : Except Failure α) : Steady limit limit' (ofExcept result) := by
  cases result with
  | ok a => exact pure_steady a
  | error e => exact fail_mirrored e

theorem lookup_steady (name : String) : Steady limit limit' (lookup name) := by
  refine look_mirrored fun s t h => ?_
  have hl : s.lookup name = t.lookup name := by rw [State.lookup, State.lookup, h.bindings]
  rw [hl]
  exact ofExcept_steady _

/-- What an earlier step left is the same up to a view of it. -/
theorem demand_mirrored (step : MissingStep) {part : State → Option α} (view : α → β)
    (hp : ∀ s t, State.Mirrors limit limit' s t → (part s).map view = (part t).map view) :
    Mirrored limit limit' (fun a b => view a = view b) (demand step part) (demand step part) := by
  refine look_mirrored fun s t h => ?_
  have hv := hp s t h
  cases hs : part s with
  | none =>
      cases ht : part t with
      | none => exact fail_mirrored _
      | some b => simp [hs, ht] at hv
  | some a =>
      cases ht : part t with
      | none => simp [hs, ht] at hv
      | some b => exact pure_mirrored (by simpa [hs, ht] using hv)

theorem demand_steady (step : MissingStep) {part : State → Option α}
    (hp : ∀ s t, State.Mirrors limit limit' s t → part s = part t) :
    Steady limit limit' (demand step part) :=
  demand_mirrored step id fun s t h => by rw [hp s t h]

theorem ask_mirrored {answer answer' : Except ServiceError α} (view : α → β)
    (h : answer.map view = answer'.map view) :
    Mirrored limit limit' (fun a b => view a = view b) (ask answer) (ask answer') := by
  cases answer with
  | ok a =>
      cases answer' with
      | ok b => exact pure_mirrored (Except.ok.inj h)
      | error e => cases h
  | error e =>
      cases answer' with
      | ok b => cases h
      | error e' =>
          cases h
          exact fail_mirrored _

theorem ask_steady (answer : Except ServiceError α) : Steady limit limit' (ask answer) :=
  ofExcept_steady _

end Steps

end Action

end SentenceScript
