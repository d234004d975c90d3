import A64.Stream.Handoff

/-! Two threads at one channel. The thread of the producer makes items one by one, perhaps for ever, the consumer
calls for them, and both move as the scheduler likes. Main statement: in every interleaving the calls return what
the hand-off returns that makes one call after the other. -/

namespace A64

/-- How a stream is made. The place where it goes on gives the next item and the place after it, if the
item is not the last one. -/
abbrev Maker (γ ι : Type) := γ → Option (ι × Option γ)

inductive Thread (γ ι : Type) where
  /-- Looks next whether the stream was cancelled. -/
  | looking (place : γ)
  | reading (place : γ)
  /-- Has an item, and looks once more before it offers it. -/
  | ready (item : ι) (after : Option γ)
  | offering (item : ι) (after : Option γ)
  /-- Has no more to do, but still holds its end of the channel. -/
  | leaving
  | closed
  | exited
  deriving DecidableEq, Repr

inductive Call where
  | next
  | cancel
  | drop
  deriving DecidableEq, Repr

/-- Where the consumer stands. A call that ends the stream raises the flag, hangs up and joins the thread
before it returns. -/
inductive Consumer where
  | free
  | awaiting
  | raising (c : Call)
  | hangingUp (c : Call)
  | joining (c : Call)
  | gone
  deriving DecidableEq, Repr

inductive Return (ι : Type) where
  | answer (item : Option ι)
  | cancelled
  | dropped
  deriving DecidableEq, Repr

namespace Return

variable {ι : Type}

def call : Return ι → Call
  | answer _ => .next
  | cancelled => .cancel
  | dropped => .drop

def item? : Return ι → Option ι
  | answer item => item
  | cancelled | dropped => none

def taken (returns : List (Return ι)) : List ι := returns.filterMap item?

end Return

inductive Turn where
  | producer
  | consumer
  | call (c : Call)
  deriving DecidableEq, Repr

def Turn.isCall : Turn → Bool
  | call _ => true
  | producer | consumer => false

/-- Both threads with what they share. The consumer is `connected` as long as it has its end of the
channel, and `attached` until it has joined the thread. -/
structure Exchange (γ ι : Type) where
  thread : Thread γ ι
  consumer : Consumer
  cancelled : Bool
  connected : Bool
  attached : Bool
  deriving DecidableEq, Repr

variable {γ ι : Type} {make : Maker γ ι}

/-- The first `n` items that are made from a place on, or all of them if there are fewer. -/
def Maker.first (make : Maker γ ι) : Nat → γ → List ι
  | 0, _ => []
  | n + 1, place =>
    match make place with
    | none => []
    | some (item, none) => [item]
    | some (item, some next) => item :: make.first n next

namespace Thread

def resume : Option γ → Thread γ ι
  | some place => looking place
  | none => leaving

/-- A step that the thread makes by itself. An offer has to wait for a consumer that is connected. -/
def step? (make : Maker γ ι) (cancelled connected : Bool) : Thread γ ι → Option (Thread γ ι)
  | looking place => some (if cancelled then leaving else reading place)
  | reading place =>
    some <|
      match make place with
      | some (item, after) => ready item after
      | none => leaving
  | ready item after => some (if cancelled then leaving else offering item after)
  | offering _ _ => if connected then none else some leaving
  | leaving => some closed
  | closed => some exited
  | exited => none

end Thread

namespace Exchange

def start (thread : Thread γ ι) : Exchange γ ι := ⟨thread, .free, false, true, true⟩

def finish (x : Exchange γ ι) : Call → Exchange γ ι × Return ι
  | .next => ({ x with consumer := .free, attached := false }, .answer none)
  | .cancel => ({ x with consumer := .free, attached := false }, .cancelled)
  | .drop => ({ x with consumer := .gone, attached := false }, .dropped)

/-- A step of a consumer that has called. To take an item, it has to meet the offer. -/
def consume? (x : Exchange γ ι) : Option (Exchange γ ι × Option (Return ι)) :=
  match x.consumer with
  | .free | .gone => none
  | .awaiting =>
    match x.thread with
    | .offering item after =>
      some ({ x with thread := .resume after, consumer := .free }, some (.answer (some item)))
    | .closed | .exited => some ({ x with consumer := .raising .next }, none)
    | _ => none
  | .raising c => some ({ x with consumer := .hangingUp c, cancelled := true }, none)
  | .hangingUp c => some ({ x with consumer := .joining c, connected := false }, none)
  | .joining c =>
    match x.attached, x.thread with
    | false, _ | _, .exited => some ((x.finish c).1, some (x.finish c).2)
    | true, _ => none

/-- The consumer calls, if no call of it is under way. Without a channel there is nothing to wait for. -/
def begin? (x : Exchange γ ι) (c : Call) : Option (Exchange γ ι × Option (Return ι)) :=
  match x.consumer, c with
  | .free, .next =>
    if x.connected then some ({ x with consumer := .awaiting }, none) else some (x, some (.answer none))
  | .free, c => some ({ x with consumer := .raising c }, none)
  | _, _ => none

def step? (make : Maker γ ι) (x : Exchange γ ι) : Turn → Option (Exchange γ ι × Option (Return ι))
  | .producer =>
    (x.thread.step? make x.cancelled x.connected).map fun thread => ({ x with thread := thread }, none)
  | .consumer => x.consume?
  | .call c => x.begin? c

/-- An interleaving, and what returns in it. Turns of those who have to wait are passed over. -/
def run (make : Maker γ ι) : List Turn → Exchange γ ι → Exchange γ ι × List (Return ι)
  | [], x => (x, [])
  | turn :: turns, x =>
    match x.step? make turn with
    | none => run make turns x
    | some (y, r) => ((run make turns y).1, r.toList ++ (run make turns y).2)

def isBusy (x : Exchange γ ι) : Bool :=
  match x.consumer with
  | .free | .gone => false
  | _ => true

end Exchange

/-! The hand-off that makes one call after the other. -/

namespace Handoff

def finished : Handoff ι := ⟨.exited, true, false⟩

def perform (h : Handoff ι) : Call → Return ι × Handoff ι
  | .next => (.answer h.next.1, h.next.2)
  | .cancel => (.cancelled, h.cancel)
  | .drop => (.dropped, h.cancel)

/-- Makes the calls one after the other. A consumer that was dropped does not call any more. -/
def replay : List Call → Handoff ι → List (Return ι) × Handoff ι
  | [], h => ([], h)
  | .drop :: _, h => ([.dropped], h.cancel)
  | c :: calls, h =>
    ((h.perform c).1 :: (replay calls (h.perform c).2).1, (replay calls (h.perform c).2).2)

theorem replay_cons {h : Handoff ι} {r : Return ι} (hr : (h.perform r.call).1 = r) (hne : r ≠ .dropped)
    (calls : List Call) :
    h.replay (r.call :: calls) =
      (r :: ((h.perform r.call).2.replay calls).1, ((h.perform r.call).2.replay calls).2) := by
  cases r with
  | answer item | cancelled => simp only [Return.call, replay] at hr ⊢; rw [hr]
  | dropped => exact absurd rfl hne

theorem cancel_start (items : List ι) : (start items).cancel = finished := by
  simp [cancel, start, finished, settle, step?]

theorem cancel_finished : (finished : Handoff ι).cancel = finished := by
  simp [cancel, finished, settle, step?]

theorem next_finished : (finished : Handoff ι).next = (none, finished) := by
  simp [next, finished, settle, step?, receive?, cancel]

end Handoff

/-! What an interleaving keeps. -/

/-- The items that a thread has still to hand over, as far as `n` of them have to be made yet. -/
def Thread.pending (make : Maker γ ι) (n : Nat) : Thread γ ι → List ι
  | looking place | reading place => make.first n place
  | ready item after | offering item after => item :: after.elim [] (make.first n)
  | leaving | closed | exited => []

theorem Thread.pending_resume (make : Maker γ ι) (n : Nat) (after : Option γ) :
    (resume after : Thread γ ι).pending make n = after.elim [] (make.first n) := by
  cases after <;> rfl

/-- As long as nobody ends the stream, the thread keeps what it has to hand over. At most one item is made. -/
theorem Thread.pending_step {t u : Thread γ ι} {n : Nat} (hs : t.step? make false true = some u) :
    ∃ k, n ≤ k ∧ u.pending make k = t.pending make (n + 1) := by
  cases t with
  | looking place | ready item after | leaving | closed =>
    cases hs
    exact ⟨n + 1, Nat.le_succ n, rfl⟩
  | reading place =>
    refine ⟨n, Nat.le_refl n, ?_⟩
    rw [step?, Option.some.injEq] at hs
    subst hs
    rw [pending, Maker.first]
    cases make place with
    | none => rfl
    | some made => obtain ⟨item, _ | next⟩ := made <;> rfl
  | offering item after | exited => cases hs

namespace Exchange

/-- An exchange that stands where a hand-off stands between two calls, and of whose items the next `n` are known.
While a call is under way, this is the hand-off before the call. -/
inductive Agrees (make : Maker γ ι) (n : Nat) : Exchange γ ι → Handoff ι → Prop where
  /-- Nobody has ended the stream. -/
  | listening {thread : Thread γ ι} {consumer : Consumer} {k : Nat} (hk : n ≤ k)
      (hconsumer : consumer = .free ∨ consumer = .awaiting) :
      Agrees make n ⟨thread, consumer, false, true, true⟩ (.start (thread.pending make k))
  /-- A call ends the stream; the thread need not know yet. -/
  | finishing {x : Exchange γ ι} {items : List ι} {c : Call}
      (hconsumer : x.consumer = .raising c ∨ x.consumer = .hangingUp c ∧ x.cancelled = true ∨
        x.consumer = .joining c ∧ x.cancelled = true ∧ x.connected = false)
      (hattached : x.attached = true) (hnext : c = .next → items = []) : Agrees make n x (.start items)
  | ended {consumer : Consumer} : Agrees make n ⟨.exited, consumer, true, false, false⟩ .finished

theorem agrees_start (make : Maker γ ι) (thread : Thread γ ι) (n : Nat) :
    Agrees make n (start thread) (.start (thread.pending make n)) :=
  .listening (Nat.le_refl n) (.inl rfl)

/-- What a turn leads to: as long as nothing returns, the exchange still stands before the call. -/
def Reaches (make : Maker γ ι) (n : Nat) (h : Handoff ι) (y : Exchange γ ι) : Option (Return ι) → Prop
  | none => Agrees make n y h
  | some r =>
    (h.perform r.call).1 = r ∧ Agrees make n y (h.perform r.call).2 ∧ (r = .dropped → y.consumer = .gone)

variable {x y : Exchange γ ι} {h : Handoff ι} {r : Option (Return ι)} {n : Nat}

theorem Agrees.mono {k : Nat} (ha : Agrees make k x h) (hn : n ≤ k) : Agrees make n x h := by
  cases ha with
  | listening hk hconsumer => exact .listening (Nat.le_trans hn hk) hconsumer
  | finishing hconsumer hattached hnext => exact .finishing hconsumer hattached hnext
  | ended => exact .ended

theorem Agrees.produce (ha : Agrees make (n + 1) x h) (hs : x.step? make .producer = some (y, r)) :
    Reaches make n h y r := by
  obtain ⟨thread, ht, heq⟩ := Option.map_eq_some_iff.mp hs
  cases heq
  cases ha with
  | @listening t consumer k hk hconsumer =>
    obtain ⟨l, hl, hpending⟩ := Thread.pending_step (n := k - 1) ht
    rw [Nat.sub_add_cancel (by omega)] at hpending
    rw [← hpending]
    exact .listening (by omega) hconsumer
  | finishing hconsumer hattached hnext => exact .finishing hconsumer hattached hnext
  | ended => cases ht

theorem reaches_finish {consumer : Consumer} {attached : Bool} {c : Call}
    (hx : x = ⟨.exited, consumer, true, false, attached⟩)
    (hh : h = .finished ∨ ∃ items, h = .start items ∧ (c = .next → items = [])) :
    Reaches make n h (x.finish c).1 (some (x.finish c).2) := by
  subst hx
  have hcancel : h.cancel = .finished := by
    rcases hh with rfl | ⟨items, rfl, -⟩
    · exact Handoff.cancel_finished
    · exact Handoff.cancel_start items
  cases c with
  | next =>
    have hnext : h.next = (none, .finished) := by
      rcases hh with rfl | ⟨items, rfl, hitems⟩
      · exact Handoff.next_finished
      · rw [hitems rfl]
        exact Handoff.next_start_nil
    refine ⟨?_, ?_, nofun⟩
    · simp only [finish, Return.call, Handoff.perform, hnext]
    · simp only [finish, Return.call, Handoff.perform, hnext]
      exact .ended
  | cancel =>
    refine ⟨rfl, ?_, nofun⟩
    simp only [finish, Return.call, Handoff.perform, hcancel]
    exact .ended
  | drop =>
    refine ⟨rfl, ?_, fun _ => rfl⟩
    simp only [finish, Return.call, Handoff.perform, hcancel]
    exact .ended

theorem Agrees.consume (ha : Agrees make n x h) (hs : x.consume? = some (y, r)) :
    Reaches make n h y r := by
  cases ha with
  | @listening thread consumer k hk hconsumer =>
    rcases hconsumer with rfl | rfl
    · cases hs
    cases thread with
    | offering item after =>
      cases hs
      refine ⟨?_, ?_, nofun⟩
      · simp only [Thread.pending, Return.call, Handoff.perform, Handoff.next_start_cons]
      · simp only [Thread.pending, Return.call, Handoff.perform, Handoff.next_start_cons]
        rw [← Thread.pending_resume]
        exact .listening hk (.inl rfl)
    | closed | exited =>
      cases hs
      exact .finishing (.inl rfl) rfl fun _ => rfl
    | _ => cases hs
  | @finishing x items c hconsumer hattached hnext =>
    obtain ⟨thread, consumer, cancelled, connected, attached⟩ := x
    simp only at hconsumer hattached
    subst hattached
    rcases hconsumer with rfl | ⟨rfl, rfl⟩ | ⟨rfl, rfl, rfl⟩
    · cases hs
      exact .finishing (.inr (.inl ⟨rfl, rfl⟩)) rfl hnext
    · cases hs
      exact .finishing (.inr (.inr ⟨rfl, rfl, rfl⟩)) rfl hnext
    · cases thread with
      | exited =>
        cases hs
        exact reaches_finish rfl (.inr ⟨items, rfl, hnext⟩)
      | _ => cases hs
  | @ended consumer =>
    cases consumer with
    | free | gone => cases hs
    | awaiting | raising | hangingUp =>
      cases hs
      exact .ended
    | joining c =>
      cases hs
      exact reaches_finish rfl (.inl rfl)

theorem Agrees.begin {c : Call} (ha : Agrees make n x h) (hs : x.begin? c = some (y, r)) :
    Reaches make n h y r := by
  cases ha with
  | @listening thread consumer k hk hconsumer =>
    rcases hconsumer with rfl | rfl
    · cases c with
      | next =>
        cases hs
        exact .listening hk (.inr rfl)
      | cancel | drop =>
        cases hs
        exact .finishing (.inl rfl) rfl nofun
    · cases c <;> cases hs
  | @finishing x items c' hconsumer hattached hnext =>
    obtain ⟨thread, consumer, cancelled, connected, attached⟩ := x
    simp only at hconsumer
    rcases hconsumer with rfl | ⟨rfl, -⟩ | ⟨rfl, -⟩ <;> cases c <;> cases hs
  | @ended consumer =>
    cases consumer with
    | free =>
      cases c with
      | next =>
        cases hs
        refine ⟨?_, ?_, nofun⟩
        · simp only [Return.call, Handoff.perform, Handoff.next_finished]
        · simp only [Return.call, Handoff.perform, Handoff.next_finished]
          exact .ended
      | cancel | drop =>
        cases hs
        exact .ended
    | _ => cases c <;> cases hs

theorem Agrees.exited (ha : Agrees make n x h) (hh : h = .finished) : x.thread = .exited := by
  cases ha with
  | listening | finishing => simp [Handoff.start, Handoff.finished] at hh
  | ended => rfl

theorem Agrees.step {turn : Turn} (ha : Agrees make (n + 1) x h) (hs : x.step? make turn = some (y, r)) :
    Reaches make n h y r := by
  cases turn with
  | producer => exact ha.produce hs
  | consumer => exact (ha.mono (Nat.le_succ n)).consume hs
  | call c => exact (ha.mono (Nat.le_succ n)).begin hs

theorem run_gone (make : Maker γ ι) (hx : x.consumer = .gone) (turns : List Turn) :
    (run make turns x).2 = [] ∧ (run make turns x).1.consumer = .gone := by
  induction turns generalizing x with
  | nil => exact ⟨rfl, hx⟩
  | cons turn turns ih =>
    rw [run]
    cases hs : x.step? make turn with
    | none => exact ih hx
    | some result =>
      obtain ⟨y, r⟩ := result
      have hy : y.consumer = .gone ∧ r = none := by
        cases turn with
        | producer =>
          obtain ⟨thread, -, heq⟩ := Option.map_eq_some_iff.mp hs
          cases heq
          exact ⟨hx, rfl⟩
        | consumer => simp [step?, consume?, hx] at hs
        | call c => simp [step?, begin?, hx] at hs
      obtain ⟨hy, rfl⟩ := hy
      simpa using ih hy

theorem Agrees.run {turns : List Turn} (ha : Agrees make (n + turns.length) x h) :
    (run make turns x).2 = (h.replay ((run make turns x).2.map Return.call)).1 ∧
      Agrees make n (run make turns x).1 (h.replay ((run make turns x).2.map Return.call)).2 := by
  -- Induction on the turns, each of which makes at most one of the items that are known.
  induction turns generalizing x h with
  | nil => exact ⟨rfl, ha⟩
  | cons turn turns ih =>
    rw [Exchange.run]
    cases hs : x.step? make turn with
    | none => exact ih (ha.mono (Nat.le_succ _))
    | some result =>
      obtain ⟨y, r⟩ := result
      have hy := ha.step hs
      cases r with
      | none => exact ih hy
      | some r =>
        obtain ⟨hr, hagrees, hgone⟩ := hy
        have hrest := ih hagrees
        simp only [Option.toList_some, List.singleton_append, List.map_cons]
        by_cases hdropped : r = .dropped
        · have hnil := (run_gone make (hgone hdropped) turns).1
          subst hdropped
          rw [hnil] at hrest ⊢
          exact ⟨rfl, hrest.2⟩
        · rw [Handoff.replay_cons hr hdropped]
          exact ⟨congrArg _ hrest.1, hrest.2⟩

end Exchange

/-! What the calls return, seen from the items of the stream. -/

/-- What calls can return of a stream, and the hand-off after them: items in their order as long as the
stream goes on, and none from the call on that ends it. -/
inductive History : List ι → List (Return ι) → Handoff ι → Prop where
  | running (items : List ι) : History items [] (.start items)
  | taken {items : List ι} {item : ι} {returns : List (Return ι)} {h : Handoff ι}
      (hs : History items returns h) : History (item :: items) (.answer (some item) :: returns) h
  | ended {items : List ι} {r : Return ι} {returns : List (Return ι)}
      (hr : r = .answer none ∧ items = [] ∨ r = .cancelled ∨ r = .dropped ∧ returns = [])
      (hs : ∀ item, .answer (some item) ∉ returns) : History items (r :: returns) .finished

theorem Handoff.replay_finished {h : Handoff ι} (hh : h = finished) (calls : List Call) :
    (∀ item, .answer (some item) ∉ (h.replay calls).1) ∧ (h.replay calls).2 = finished := by
  subst hh
  induction calls with
  | nil => exact ⟨fun _ => List.not_mem_nil, rfl⟩
  | cons c calls ih =>
    cases c with
    | next =>
      simp only [replay, perform, next_finished]
      simpa using ih
    | cancel =>
      simp only [replay, perform, cancel_finished]
      simpa using ih
    | drop => simp [replay, cancel_finished]

theorem Handoff.history_replay (calls : List Call) (items : List ι) :
    History items ((start items).replay calls).1 ((start items).replay calls).2 := by
  induction calls generalizing items with
  | nil => exact .running items
  | cons c calls ih =>
    cases c with
    | next =>
      cases items with
      | nil =>
        have hnext : (start ([] : List ι)).next = (none, finished) := next_start_nil
        obtain ⟨hquiet, hfinal⟩ := replay_finished (congrArg Prod.snd hnext) calls
        simp only [hnext] at hquiet hfinal
        simp only [replay, perform, hnext, hfinal]
        exact .ended (.inl ⟨rfl, rfl⟩) hquiet
      | cons item items =>
        simp only [replay, perform, next_start_cons]
        exact .taken (ih items)
    | cancel =>
      obtain ⟨hquiet, hfinal⟩ := replay_finished (cancel_start items) calls
      simp only [replay, perform, hfinal]
      exact .ended (.inr (.inl rfl)) hquiet
    | drop =>
      simp only [replay, cancel_start]
      exact .ended (.inr (.inr ⟨rfl, rfl⟩)) fun _ => List.not_mem_nil

namespace History

variable {items : List ι} {returns before after : List (Return ι)} {h : Handoff ι} {r : Return ι}

theorem taken_of_quiet (hs : ∀ item, Return.answer (some item) ∉ returns) : Return.taken returns = [] := by
  rw [Return.taken, List.filterMap_eq_nil_iff]
  intro r hr
  cases r with
  | answer item =>
    cases item with
    | none => rfl
    | some item => exact absurd hr (hs item)
  | cancelled | dropped => rfl

theorem taken_in_order (hs : History items returns h) : Return.taken returns <+: items := by
  induction hs with
  | running items => exact List.nil_prefix
  | taken _ ih => exact List.prefix_cons_inj _ |>.mpr ih
  | @ended items r returns hr hs =>
    have hnone : r.item? = none := by rcases hr with ⟨rfl, -⟩ | rfl | ⟨rfl, -⟩ <;> rfl
    rw [Return.taken, List.filterMap_cons_none hnone, ← Return.taken, taken_of_quiet hs]
    exact List.nil_prefix

theorem taken_all (hs : History items returns h) (heq : returns = before ++ .answer none :: after)
    (hbefore : .cancelled ∉ before) : Return.taken before = items := by
  induction hs generalizing before with
  | running => simp at heq
  | @taken items item returns h _ ih =>
    cases before with
    | nil => cases heq
    | cons r before =>
      simp only [List.cons_append, List.cons.injEq] at heq
      obtain ⟨rfl, heq⟩ := heq
      exact congrArg _ (ih heq fun hm => hbefore (.tail _ hm))
  | @ended items r returns hr hs =>
    cases before with
    | nil =>
      simp only [List.nil_append, List.cons.injEq] at heq
      obtain ⟨rfl, rfl⟩ := heq
      rcases hr with ⟨-, rfl⟩ | hr | ⟨hr, -⟩
      · rfl
      · cases hr
      · cases hr
    | cons r before =>
      simp only [List.cons_append, List.cons.injEq] at heq
      obtain ⟨rfl, rfl⟩ := heq
      rcases hr with ⟨rfl, rfl⟩ | rfl | ⟨-, hnil⟩
      · exact taken_of_quiet fun item hm => by
          rcases List.mem_cons.mp hm with hm | hm
          · cases hm
          · exact hs item (List.mem_append_left _ hm)
      · exact absurd (List.mem_cons_self ..) hbefore
      · simp at hnil

theorem quiet_after (hs : History items returns h) (heq : returns = before ++ r :: after)
    (hr : r = .answer none ∨ r = .cancelled) (item : ι) : .answer (some item) ∉ after := by
  induction hs generalizing before with
  | running => simp at heq
  | taken _ ih =>
    cases before with
    | nil =>
      cases heq
      rcases hr with hr | hr <;> cases hr
    | cons r before =>
      simp only [List.cons_append, List.cons.injEq] at heq
      exact ih heq.2
  | ended _ hs =>
    cases before with
    | nil =>
      simp only [List.nil_append, List.cons.injEq] at heq
      exact heq.2 ▸ hs item
    | cons r before =>
      simp only [List.cons_append, List.cons.injEq] at heq
      intro hm
      apply hs item
      rw [heq.2]
      exact List.mem_append_right _ (.tail _ hm)

theorem eq_finished (hs : History items returns h) (hmem : .cancelled ∈ returns ∨ .dropped ∈ returns) :
    h = .finished := by
  induction hs with
  | running => simp at hmem
  | taken _ ih => exact ih (by simpa using hmem)
  | ended => rfl

end History

/-! A call under way returns. -/

def Thread.weight : Thread γ ι → Nat
  | looking _ => 6
  | reading _ => 5
  | ready _ _ => 4
  | offering _ _ => 3
  | leaving => 2
  | closed => 1
  | exited => 0

def Consumer.weight : Consumer → Nat
  | awaiting => 4
  | raising _ => 3
  | hangingUp _ => 2
  | joining _ => 1
  | free | gone => 0

theorem Thread.weight_step? {cancelled connected : Bool} {t u : Thread γ ι}
    (hs : t.step? make cancelled connected = some u) : u.weight < t.weight := by
  cases t with
  | looking place | ready item after => cases cancelled <;> cases hs <;> simp [weight]
  | reading place =>
    simp only [step?, Option.some.injEq] at hs
    subst hs
    split <;> simp [weight]
  | offering item after =>
    cases connected <;> cases hs
    simp [weight]
  | leaving | closed =>
    cases hs
    simp [weight]
  | exited => cases hs

namespace Exchange

def weight (x : Exchange γ ι) : Nat := x.thread.weight + x.consumer.weight

variable {x y : Exchange γ ι} {h : Handoff ι} {turn : Turn} {n : Nat}

/-- A turn that returns nothing brings a call under way nearer to its return. -/
theorem weight_step? (hbusy : x.isBusy = true) (hcall : turn.isCall = false)
    (hs : x.step? make turn = some (y, none)) : y.isBusy = true ∧ y.weight < x.weight := by
  cases turn with
  | producer =>
    obtain ⟨thread, ht, heq⟩ := Option.map_eq_some_iff.mp hs
    cases heq
    exact ⟨hbusy, Nat.add_lt_add_right (Thread.weight_step? ht) _⟩
  | consumer =>
    obtain ⟨thread, consumer, cancelled, connected, attached⟩ := x
    cases consumer with
    | free | gone => cases hbusy
    | awaiting =>
      cases thread <;> cases hs <;> exact ⟨rfl, Nat.lt_succ_self _⟩
    | raising c | hangingUp c =>
      cases hs
      exact ⟨rfl, Nat.lt_succ_self _⟩
    | joining c => cases thread <;> cases attached <;> cases hs
  | call c => cases hcall

/-- As long as a call is under way, one of the two threads can move. -/
theorem Agrees.exists_step (ha : Agrees make n x h) (hbusy : x.isBusy = true) :
    ∃ turn y r, turn.isCall = false ∧ x.step? make turn = some (y, r) := by
  cases ha with
  | @listening thread consumer k hk hconsumer =>
    rcases hconsumer with rfl | rfl
    · cases hbusy
    · cases thread with
      | offering | closed | exited => exact ⟨.consumer, _, _, rfl, rfl⟩
      | _ => exact ⟨.producer, _, _, rfl, rfl⟩
  | @finishing x items c hconsumer hattached hnext =>
    obtain ⟨thread, consumer, cancelled, connected, attached⟩ := x
    simp only at hconsumer hattached
    subst hattached
    rcases hconsumer with rfl | ⟨rfl, -⟩ | ⟨rfl, rfl, rfl⟩
    · exact ⟨.consumer, _, _, rfl, rfl⟩
    · exact ⟨.consumer, _, _, rfl, rfl⟩
    · cases thread with
      | exited => exact ⟨.consumer, _, _, rfl, rfl⟩
      | _ => exact ⟨.producer, _, _, rfl, rfl⟩
  | @ended consumer =>
    cases consumer with
    | free | gone => cases hbusy
    | _ => exact ⟨.consumer, _, _, rfl, rfl⟩

theorem Agrees.exists_return (ha : Agrees make n x h) (hn : x.weight ≤ n) (hbusy : x.isBusy = true) :
    ∃ turns r, (∀ turn ∈ turns, turn.isCall = false) ∧ (Exchange.run make turns x).2 = [r] := by
  induction hw : x.weight using Nat.strongRecOn generalizing x n with
  | ind w ih =>
    subst hw
    obtain ⟨turn, y, r, hcall, hs⟩ := ha.exists_step hbusy
    cases r with
    | some r =>
      refine ⟨[turn], r, by simpa using hcall, ?_⟩
      simp only [Exchange.run, hs]
      rfl
    | none =>
      obtain ⟨hbusy', hlt⟩ := weight_step? hbusy hcall hs
      obtain ⟨k, rfl⟩ : ∃ k, n = k + 1 := ⟨n - 1, by omega⟩
      obtain ⟨turns, r, hcalls, hrun⟩ := ih _ hlt (ha.step hs) (by omega) hbusy' rfl
      refine ⟨turn :: turns, r, by simpa using ⟨hcall, hcalls⟩, ?_⟩
      simp only [Exchange.run, hs]
      exact hrun

theorem run_append (turns more : List Turn) (x : Exchange γ ι) :
    run make (turns ++ more) x =
      ((run make more (run make turns x).1).1,
        (run make turns x).2 ++ (run make more (run make turns x).1).2) := by
  induction turns generalizing x with
  | nil => rfl
  | cons turn turns ih =>
    rw [List.cons_append, run, run]
    cases hs : x.step? make turn with
    | none => exact ih x
    | some result =>
      simp only [ih result.1, List.append_assoc]

end Exchange

/-- An interleaving of a thread and its consumer hands over `items`. -/
structure HandsOver (make : Maker γ ι) (thread : Thread γ ι) (turns : List Turn) (items : List ι) : Prop where
  /-- The calls return what they return one after the other. -/
  replays :
    let returns := (Exchange.run make turns (.start thread)).2
    returns = ((Handoff.start items).replay (returns.map Return.call)).1
  in_order : Return.taken (Exchange.run make turns (.start thread)).2 <+: items
  complete (before after : List (Return ι)) :
    (Exchange.run make turns (.start thread)).2 = before ++ .answer none :: after →
      .cancelled ∉ before → Return.taken before = items
  stays_ended (before after : List (Return ι)) (r : Return ι) :
    (Exchange.run make turns (.start thread)).2 = before ++ r :: after →
      r = .answer none ∨ r = .cancelled → ∀ item, .answer (some item) ∉ after
  exits :
    .cancelled ∈ (Exchange.run make turns (.start thread)).2 ∨
        .dropped ∈ (Exchange.run make turns (.start thread)).2 →
      (Exchange.run make turns (.start thread)).1.thread = .exited
  /-- A call under way can always return. -/
  returns :
    (Exchange.run make turns (.start thread)).1.isBusy = true →
      ∃ more r, (∀ turn ∈ more, turn.isCall = false) ∧
        (Exchange.run make (turns ++ more) (.start thread)).2 =
          (Exchange.run make turns (.start thread)).2 ++ [r]

/-- A stream need not end to be handed over: an interleaving cannot tell it from its first items, if these are as
many as there are turns. -/
theorem handsOver_pending (make : Maker γ ι) (thread : Thread γ ι) {turns : List Turn} {n : Nat}
    (hn : turns.length ≤ n) : HandsOver make thread turns (thread.pending make n) := by
  have hrun := ((Exchange.agrees_start make thread n).mono (n := 0 + turns.length) (by omega)).run
  have hhistory := Handoff.history_replay
    ((Exchange.run make turns (.start thread)).2.map Return.call) (thread.pending make n)
  rw [← hrun.1] at hhistory
  refine ⟨hrun.1, hhistory.taken_in_order, fun _ _ heq => hhistory.taken_all heq,
    fun _ _ _ heq => hhistory.quiet_after heq, fun hmem => ?_, fun hbusy => ?_⟩
  · exact hrun.2.exited (hhistory.eq_finished hmem)
  · -- The steps that are left may make items beyond the first `n`.
    have hagrees := (Exchange.agrees_start make thread
      ((Exchange.run make turns (.start thread)).1.weight + turns.length)).run.2
    obtain ⟨more, r, hcalls, hmore⟩ := hagrees.exists_return (Nat.le_refl _) hbusy
    exact ⟨more, r, hcalls, by rw [Exchange.run_append, hmore]⟩

end A64
