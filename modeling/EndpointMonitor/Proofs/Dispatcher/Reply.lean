import EndpointMonitor.Proofs.Dispatcher.Operation
import Mathlib.Algebra.Order.Group.Multiset

/-!
What becomes of the replies that a dispatcher owes. The reply of a call is at one place at any time:
it waits with its handler, a handler keeps it, or it has been given.
-/

namespace EndpointMonitor

inductive Reply where
  | decision (answer : UInt32 × Bool)
  | result (value : Except String Bytes)

/-- Where the reply of a call is. -/
inductive ReplyPlace where
  | authWaits (handler : AuthHandler) (message : EventMessage)
  | customWaits (handler : CustomHandler) (data : Bytes)
  | kept
  | keptCustom
  | given (reply : Reply)

namespace ReplyPlace

/-- An authorization request that nobody decides is allowed once. -/
def undecided : ReplyPlace := .given (.decision (0xffffffff, false))

def unanswered : ReplyPlace := .given (.result (.error "custom message dropped without a reply"))

/-- The handler runs. What it does with the reply counts, even if it fails afterwards. -/
def ran : ReplyPlace → ReplyPlace
  | .authWaits handler message =>
    match (handler message).reply with
    | .send resolution => .given (.decision resolution.toWire)
    | .drop => undecided
    | .keep => .kept
  | .customWaits handler data =>
    match (handler data).reply with
    | .send result => .given (.result result)
    | .drop => unanswered
    | .keep => .keptCustom
  | place => place

/-- The handler is never run. -/
def lost : ReplyPlace → ReplyPlace
  | .authWaits _ _ => undecided
  | .customWaits _ _ => unanswered
  | place => place

/-- Whoever keeps the reply to an authorization request resolves it or drops it. -/
def used (resolution : Option Resolution) : ReplyPlace → ReplyPlace
  | .kept => resolution.elim undecided fun r => .given (.decision r.toWire)
  | place => place

/-- Whoever keeps the reply to a custom message sends it or drops it. -/
def usedCustom (result : Option (Except String Bytes)) : ReplyPlace → ReplyPlace
  | .keptCustom => result.elim unanswered fun r => .given (.result r)
  | place => place

def reply? : ReplyPlace → Option Reply
  | .given reply => some reply
  | _ => none

end ReplyPlace

/-- The place of the reply that one call is owed, seen from another. -/
def placeFor (call n : Nat) (place : ReplyPlace) : Option ReplyPlace :=
  if call = n then some place else none

namespace HandlerJob

def place? (n : Nat) : HandlerJob → Option ReplyPlace
  | .auth call handler message => placeFor call n (.authWaits handler message)
  | .notify _ _ => none
  | .custom call handler data => placeFor call n (.customWaits handler data)

end HandlerJob

/-- The reply that a call is given. -/
def DispatchEvent.replyTo? (n : Nat) : DispatchEvent → Option Reply
  | .invoked _ => none
  | .resolved call answer => if call = n then some (.decision answer) else none
  | .replied call result => if call = n then some (.result result) else none

def DispatchEvent.place? (n : Nat) (event : DispatchEvent) : Option ReplyPlace :=
  (event.replyTo? n).map .given

namespace Dispatcher

/-- The replies that a call has been given. -/
def replies (d : Dispatcher) (n : Nat) : List Reply := d.trace.filterMap (·.replyTo? n)

/-- All places of replies to a call. -/
def places (d : Dispatcher) (n : Nat) : Multiset ReplyPlace :=
  (d.jobs.filterMap (·.place? n) : List ReplyPlace)
    + (d.kept.filterMap (fun reply => placeFor reply.call n .kept) : List ReplyPlace)
    + (d.keptCustom.filterMap (fun call => placeFor call n .keptCustom) : List ReplyPlace)
    + ((d.replies n).map .given : List ReplyPlace)

/-- What an operation does to the reply of a call. -/
def move (n : Nat) : Operation → ReplyPlace → ReplyPlace
  | .run call => if call = n then ReplyPlace.ran else id
  | .discard call => if call = n then ReplyPlace.lost else id
  | .work | .askInterest _ => ReplyPlace.ran
  | .useKept call resolution => if call = n then ReplyPlace.used resolution else id
  | .useKeptCustom call result => if call = n then ReplyPlace.usedCustom result else id
  | .resolveKept resolution => ReplyPlace.used (some resolution)
  | .receive _ | .install _ | .setExecutor _ | .runNotification _ | .discardNotification _ => id

/-- Where the reply of a call gets to. -/
def follow (n : Nat) (place : ReplyPlace) (operations : List Operation) : ReplyPlace :=
  operations.foldl (fun place operation => move n operation place) place

/-- Where a submitted handler takes the reply that it owes. -/
def submitted (d : Dispatcher) (place : ReplyPlace) : ReplyPlace :=
  match d.executor with
  | .inline => place.ran
  | .serial | .pool => place

/-- Where the reply to an authorization request is when the request has arrived. -/
def authPlace (d : Dispatcher) (payload : Bytes) : ReplyPlace :=
  match d.codec.decode (α := EventMessage) payload, d.handlers.auth with
  | .ok message, some handler => d.submitted (.authWaits handler message)
  | _, _ => .given (.decision (0xffffffff, false))

/-- Where the reply to a custom message is when the message has arrived. -/
def customPlace (d : Dispatcher) (data : Bytes) : ReplyPlace :=
  match d.handlers.customMessage with
  | some handler => d.submitted (.customWaits handler data)
  | none => .given (.result (.error "Handler not set"))

/-- The reply that an inbound call adds. -/
def arrival (d : Dispatcher) (n : Nat) : Operation → Multiset ReplyPlace
  | .receive (.auth payload) => (placeFor d.calls n (d.authPlace payload)).toList
  | .receive (.custom data) => (placeFor d.calls n (d.customPlace data)).toList
  | _ => 0

variable {d : Dispatcher} {n : Nat}

/-! ### One place more -/

theorem map_placeFor (call n : Nat) (place : ReplyPlace) (f : ReplyPlace → ReplyPlace) :
    (placeFor call n place).map f = placeFor call n (f place) := by
  rw [placeFor, placeFor, apply_ite (Option.map f)]
  rfl

theorem filterMap_one {α β : Type} (f : α → Option β) (a : α) : [a].filterMap f = (f a).toList := by
  cases h : f a <;> simp [h]

theorem places_note (d : Dispatcher) (event : DispatchEvent) (n : Nat) :
    (d.note event).places n = d.places n + (event.place? n).toList := by
  have added : (d.note event).replies n = d.replies n ++ (event.replyTo? n).toList := by
    simp only [replies, note, List.filterMap_append, filterMap_one]
  simp only [places, added, List.map_append, ← Option.toList_map, ← Multiset.coe_add, add_assoc]
  rfl

theorem places_keep (d : Dispatcher) (reply : ResolutionReply) (n : Nat) :
    { d with kept := d.kept ++ [reply] }.places n =
      d.places n + (placeFor reply.call n .kept).toList := by
  simp only [places, replies, List.filterMap_append, filterMap_one, ← Multiset.coe_add]
  ac_rfl

theorem places_keepCustom (d : Dispatcher) (call n : Nat) :
    { d with keptCustom := d.keptCustom ++ [call] }.places n =
      d.places n + (placeFor call n .keptCustom).toList := by
  simp only [places, replies, List.filterMap_append, filterMap_one, ← Multiset.coe_add]
  ac_rfl

theorem places_wait (d : Dispatcher) (job : HandlerJob) (n : Nat) :
    { d with jobs := d.jobs ++ [job] }.places n = d.places n + (job.place? n).toList := by
  simp only [places, replies, List.filterMap_append, filterMap_one, ← Multiset.coe_add]
  ac_rfl

theorem place?_resolved (call n : Nat) (answer : UInt32 × Bool) :
    (DispatchEvent.resolved call answer).place? n =
      placeFor call n (.given (.decision answer)) :=
  apply_ite (Option.map ReplyPlace.given) ..

theorem place?_replied (call n : Nat) (result : Except String Bytes) :
    (DispatchEvent.replied call result).place? n =
      placeFor call n (.given (.result result)) :=
  apply_ite (Option.map ReplyPlace.given) ..

theorem places_invoked (d : Dispatcher) (invocation : Invocation) (n : Nat) :
    (d.note (.invoked invocation)).places n = d.places n :=
  (places_note d _ n).trans (add_zero _)

theorem places_resolve (d : Dispatcher) (call n : Nat) (resolution : Resolution) :
    (d.resolve call resolution).places n =
      d.places n + (placeFor call n (.given (.decision resolution.toWire))).toList := by
  rw [resolve, places_note, place?_resolved]

theorem places_reply (d : Dispatcher) (call n : Nat) (result : Except String Bytes) :
    (d.note (.replied call result)).places n =
      d.places n + (placeFor call n (.given (.result result))).toList := by
  rw [places_note, place?_replied]

/-! ### Handlers -/

theorem places_perform (d : Dispatcher) (job : HandlerJob) (n : Nat) :
    (d.perform job).places n = d.places n + ((job.place? n).map ReplyPlace.ran).toList := by
  cases job with
  | auth call handler message =>
    simp only [perform, HandlerJob.place?, map_placeFor, ReplyPlace.ran]
    cases (handler message).reply with
    | send resolution => rw [places_resolve, places_invoked]
    | drop =>
      rw [places_resolve, places_invoked]
      rfl
    | keep => rw [places_keep, places_invoked]
  | notify handler message => exact (places_invoked d _ n).trans (add_zero _).symm
  | custom call handler data =>
    simp only [perform, HandlerJob.place?, map_placeFor, ReplyPlace.ran]
    cases (handler data).reply with
    | send result => rw [places_reply, places_invoked]
    | drop =>
      rw [places_reply, places_invoked]
      rfl
    | keep => rw [places_keepCustom, places_invoked]

theorem places_discard (d : Dispatcher) (job : HandlerJob) (n : Nat) :
    (d.discard job).places n = d.places n + ((job.place? n).map ReplyPlace.lost).toList := by
  cases job with
  | auth call handler message =>
    simp only [discard, HandlerJob.place?, map_placeFor, places_resolve]
    rfl
  | notify handler message => exact (add_zero _).symm
  | custom call handler data =>
    simp only [discard, HandlerJob.place?, map_placeFor, places_reply]
    rfl

theorem places_foldl_perform (jobs : List HandlerJob) (d : Dispatcher) (n : Nat) :
    (jobs.foldl perform d).places n =
      d.places n + (jobs.filterMap fun job => (job.place? n).map ReplyPlace.ran) := by
  induction jobs generalizing d with
  | nil => exact (add_zero _).symm
  | cons job jobs ih =>
    rw [List.foldl_cons, ih, places_perform, ← List.singleton_append, List.filterMap_append,
      filterMap_one, ← Multiset.coe_add, add_assoc]

theorem places_submit (d : Dispatcher) (job : HandlerJob) (n : Nat) :
    (d.submit job).places n = d.places n + ((job.place? n).map d.submitted).toList := by
  unfold submit
  split
  · next mode =>
    have runs : d.submitted = ReplyPlace.ran := funext fun _ => by rw [submitted, mode]
    rw [runs, places_perform]
  all_goals
    next mode =>
    have waits : d.submitted = id := funext fun _ => by rw [submitted, mode]; rfl
    rw [waits, Option.map_id, places_wait]
    rfl

/-! ### Operations on all replies -/

/-- A move of all replies that leaves those alone that have been given. -/
theorem map_places {f : ReplyPlace → ReplyPlace} (final : ∀ reply, f (.given reply) = .given reply)
    (d : Dispatcher) (n : Nat) : (d.places n).map f =
      (d.jobs.filterMap (fun job => (job.place? n).map f) : List ReplyPlace)
        + (d.kept.filterMap (fun reply => placeFor reply.call n (f .kept)) : List ReplyPlace)
        + (d.keptCustom.filterMap (fun call => placeFor call n (f .keptCustom)) : List ReplyPlace)
        + ((d.replies n).map .given : List ReplyPlace) := by
  simp only [places, Multiset.map_add, Multiset.map_coe, List.map_filterMap, map_placeFor,
    List.map_map, Function.comp_def, final]

theorem places_work (d : Dispatcher) (n : Nat) :
    d.work.places n = (d.places n).map ReplyPlace.ran := by
  rw [map_places fun _ => rfl, work, places_foldl_perform]
  simp only [places, replies, List.filterMap_nil, Multiset.coe_nil, zero_add]
  ac_rfl

theorem places_foldl_resolve (resolution : Resolution) (replies : List ResolutionReply)
    (d : Dispatcher) (n : Nat) :
    (replies.foldl (fun d reply => d.resolve reply.call resolution) d).places n =
      d.places n + (replies.filterMap fun reply =>
        placeFor reply.call n (.given (.decision resolution.toWire))) := by
  induction replies generalizing d with
  | nil => exact (add_zero _).symm
  | cons reply replies ih =>
    rw [List.foldl_cons, ih, places_resolve, ← List.singleton_append, List.filterMap_append,
      filterMap_one, ← Multiset.coe_add, add_assoc]

theorem map_place?_used (resolution : Option Resolution) (n : Nat) (job : HandlerJob) :
    (job.place? n).map (ReplyPlace.used resolution) = job.place? n := by
  cases job with
  | auth | custom => exact map_placeFor ..
  | notify => rfl

theorem places_resolveKept (d : Dispatcher) (resolution : Resolution) (n : Nat) :
    (d.resolveKept resolution).2.places n =
      (d.places n).map (ReplyPlace.used (some resolution)) := by
  rw [map_places fun _ => rfl, resolveKept, places_foldl_resolve]
  simp only [places, replies, List.filterMap_nil, Multiset.coe_nil, add_zero, map_place?_used]
  simp only [ReplyPlace.used, Option.elim_some]
  ac_rfl

/-! ### Operations on one reply -/

/-- What moves if the reply of one call does: that place, if the call is this one, and no other. -/
inductive Moves (f : ReplyPlace → ReplyPlace) (this : Prop) (before after : Multiset ReplyPlace) :
    Prop where
  | one (rest : Multiset ReplyPlace) (o : Option ReplyPlace) (known : o.isSome = true ↔ this)
    (was : before = rest + (o.toList : Multiset ReplyPlace))
    (isNow : after = rest + ((o.map f).toList : Multiset ReplyPlace))
  | none (still : this → before.map f = before) (same : after = before)

/-- A call that is owed one reply has all its replies moved. -/
theorem Moves.eq_map {f : ReplyPlace → ReplyPlace} {call : Nat} {before after : Multiset ReplyPlace}
    (h : Moves f (call = n) before after) (single : Multiset.card before ≤ 1) :
    after = before.map (if call = n then f else id) := by
  rcases eq_or_ne call n with this | other
  · rw [if_pos this]
    cases h with
    | one rest o known was isNow =>
      obtain ⟨place, rfl⟩ := Option.isSome_iff_exists.1 (known.2 this)
      have nothing : rest = 0 := by
        rw [was, Multiset.card_add] at single
        exact Multiset.card_eq_zero.1 (Nat.le_zero.1 (Nat.le_of_lt_succ single))
      rw [isNow, was, nothing, zero_add, zero_add]
      rfl
    | none still same => rw [same, still this]
  · rw [if_neg other, Multiset.map_id]
    cases h with
    | one rest o known was isNow =>
      have absent : o = Option.none :=
        Option.not_isSome_iff_eq_none.1 fun some => other (known.1 some)
      rw [isNow, was, absent]
      rfl
    | none _ same => exact same

/-- A part of the places, with one of them apart. -/
theorem filterMap_take {α : Type} {l rest : List α} {a : α} (perm : l.Perm (a :: rest))
    (f : α → Option ReplyPlace) : (l.filterMap f : Multiset ReplyPlace) =
      (rest.filterMap f : List ReplyPlace) + ((f a).toList : Multiset ReplyPlace) := by
  rw [Multiset.coe_eq_coe.2 (perm.filterMap f), ← List.singleton_append, List.filterMap_append,
    filterMap_one, ← Multiset.coe_add, add_comm]

theorem perm_of_find? {α : Type} {p : α → Bool} {l : List α} {a : α} (h : l.find? p = some a) :
    l.Perm (a :: l.eraseP p) := by
  obtain ⟨found, before, after, rfl, others⟩ := List.find?_eq_some_iff_append.1 h
  have skips : ∀ b ∈ before, ¬p b = true := fun b mem => by simpa using others b mem
  rw [List.eraseP_append_right _ skips, List.eraseP_cons_of_pos found]
  exact List.perm_middle

theorem placeFor_isSome {call : Nat} {place : ReplyPlace} :
    (placeFor call n place).isSome = true ↔ call = n := by
  rw [placeFor]
  split <;> simp [*]

theorem place?_isSome {job : HandlerJob} :
    (job.place? n).isSome = true ↔ job.answers n = true := by
  cases job with
  | auth | custom => exact placeFor_isSome.trans decide_eq_true_iff.symm
  | notify => exact iff_of_false nofun nofun

theorem eq_of_answers {call : Nat} {job : HandlerJob} (h : job.answers call = true) :
    job.answers n = true ↔ call = n := by
  cases job with
  | auth c | custom c =>
    have same : c = call := of_decide_eq_true h
    exact same ▸ decide_eq_true_iff
  | notify => cases h

/-- What is done with the one job of a call moves the reply of that call. -/
theorem moves_job {act : Dispatcher → HandlerJob → Dispatcher} {f : ReplyPlace → ReplyPlace}
    (acts : ∀ d job n, (act d job).places n = d.places n + ((job.place? n).map f).toList)
    (final : ∀ reply, f (.given reply) = .given reply) (kept : f .kept = .kept)
    (keptCustom : f .keptCustom = .keptCustom) (d : Dispatcher) (call n : Nat) :
    Moves f (call = n) (d.places n) (places (match d.takeJob call with
      | some (job, d) => act d job
      | none => d) n) := by
  unfold takeJob
  cases found : d.jobs.find? (·.answers call) with
  | some job =>
    refine .one _ (job.place? n) (place?_isSome.trans (eq_of_answers (List.find?_some found))) ?_
      (acts _ job n)
    simp only [places, replies, filterMap_take (perm_of_find? found)]
    ac_rfl
  | none =>
    refine .none ?_ rfl
    rintro rfl
    have absent : ∀ job ∈ d.jobs, job.place? call = none := fun job mem =>
      Option.not_isSome_iff_eq_none.1 fun some =>
        List.find?_eq_none.1 found job mem (place?_isSome.1 some)
    have moved : ∀ job ∈ d.jobs, (job.place? call).map f = none := fun job mem => by
      rw [absent job mem, Option.map_none]
    rw [map_places final, List.filterMap_eq_nil_iff.2 moved, kept, keptCustom, places,
      List.filterMap_eq_nil_iff.2 absent]

theorem moves_useKept (d : Dispatcher) (call n : Nat) (resolution : Option Resolution) :
    Moves (ReplyPlace.used resolution) (call = n) (d.places n)
      ((d.step (.useKept call resolution)).places n) := by
  rw [step]
  cases found : d.kept.find? (·.call = call) with
  | some reply =>
    have same : reply.call = call := by simpa using List.find?_some found
    have value : ReplyPlace.used resolution .kept =
        .given (.decision (resolution.getD .allowOnce).toWire) := by
      cases resolution <;> rfl
    refine .one _ (placeFor call n .kept) placeFor_isSome ?_
      ((places_resolve _ _ _ _).trans (by rw [map_placeFor, value]))
    simp only [places, replies, filterMap_take (perm_of_find? found), same]
    ac_rfl
  | none =>
    refine .none ?_ rfl
    rintro rfl
    have absent : ∀ place, ∀ reply ∈ d.kept, placeFor reply.call call place = none :=
      fun _ reply mem => if_neg fun same =>
        List.find?_eq_none.1 found reply mem (decide_eq_true same)
    rw [map_places fun _ => rfl, List.filterMap_eq_nil_iff.2 (absent _), places,
      List.filterMap_eq_nil_iff.2 (absent _)]
    simp only [map_place?_used]
    rfl

theorem map_place?_usedCustom (result : Option (Except String Bytes)) (n : Nat)
    (job : HandlerJob) : (job.place? n).map (ReplyPlace.usedCustom result) = job.place? n := by
  cases job with
  | auth | custom => exact map_placeFor ..
  | notify => rfl

theorem moves_useKeptCustom (d : Dispatcher) (call n : Nat)
    (result : Option (Except String Bytes)) :
    Moves (ReplyPlace.usedCustom result) (call = n) (d.places n)
      ((d.step (.useKeptCustom call result)).places n) := by
  rw [step]
  split
  · next found =>
    have value : ReplyPlace.usedCustom result .keptCustom =
        .given (.result (result.getD lostReply)) := by
      cases result <;> rfl
    refine .one _ (placeFor call n .keptCustom) placeFor_isSome ?_
      ((places_reply _ _ _ _).trans (by rw [map_placeFor, value]))
    simp only [places, replies, filterMap_take (List.perm_cons_erase found)]
    ac_rfl
  · next missing =>
    refine .none ?_ rfl
    rintro rfl
    have absent : ∀ place, ∀ c ∈ d.keptCustom, placeFor c call place = none :=
      fun _ _ mem => if_neg (ne_of_mem_of_not_mem mem missing)
    rw [map_places fun _ => rfl, List.filterMap_eq_nil_iff.2 (absent _), places,
      List.filterMap_eq_nil_iff.2 (absent _)]
    simp only [map_place?_usedCustom]
    rfl

/-! ### Inbound calls -/

theorem places_receiveAuth (d : Dispatcher) (payload : Bytes) (n : Nat) :
    (d.receiveAuth payload).places n =
      d.places n + (placeFor d.calls n (d.authPlace payload)).toList := by
  have undecided := places_resolve { d with calls := d.calls + 1 } d.calls n .allowOnce
  cases decoded : d.codec.decode (α := EventMessage) payload with
  | error e =>
    simp only [receiveAuth, authPlace, decoded]
    exact undecided
  | ok message =>
    cases installed : d.handlers.auth with
    | none =>
      simp only [receiveAuth, authPlace, decoded, installed]
      exact undecided
    | some handler =>
      simp only [receiveAuth, authPlace, decoded, installed, places_submit, HandlerJob.place?,
        map_placeFor]
      rfl

theorem places_receiveCustom (d : Dispatcher) (data : Bytes) (n : Nat) :
    (d.receiveCustom data).places n =
      d.places n + (placeFor d.calls n (d.customPlace data)).toList := by
  cases installed : d.handlers.customMessage with
  | none =>
    simp only [receiveCustom, customPlace, installed, places_reply]
    rfl
  | some handler =>
    simp only [receiveCustom, customPlace, installed, places_submit, HandlerJob.place?,
      map_placeFor]
    rfl

theorem places_receiveNotify (d : Dispatcher) (payload : Bytes) (n : Nat) :
    (d.receiveNotify payload).places n = d.places n := by
  simp only [receiveNotify]
  split
  · exact (places_submit ..).trans (add_zero _)
  · rfl

theorem places_pathInterest (d : Dispatcher) (payload : Bytes) (n : Nat)
    (idle : d.work.places n = d.places n) : (d.pathInterest payload).2.places n = d.places n := by
  unfold pathInterest
  split
  · next process handler _ _ =>
    have asked := (places_invoked d.work (.interest process) n).trans idle
    split <;> exact asked
  · rfl

theorem ran_ran (place : ReplyPlace) : place.ran.ran = place.ran := by
  cases place with
  | authWaits handler message =>
    simp only [ReplyPlace.ran]
    cases (handler message).reply <;> rfl
  | customWaits handler data =>
    simp only [ReplyPlace.ran]
    cases (handler data).reply <;> rfl
  | kept | keptCustom | given => rfl

theorem places_askInterest (d : Dispatcher) (payload : Bytes) (n : Nat) :
    (d.work.pathInterest payload).2.places n = (d.places n).map ReplyPlace.ran := by
  rw [← places_work]
  refine places_pathInterest d.work payload n ?_
  simp only [places_work, Multiset.map_map, Function.comp_def, ran_ran]

theorem places_eraseNotification {index : Nat} {handler : NotifyHandler} {message : EventMessage}
    (found : d.jobs[index]? = some (.notify handler message)) (n : Nat) :
    { d with jobs := d.jobs.eraseIdx index }.places n = d.places n := by
  obtain ⟨inside, job⟩ := List.getElem?_eq_some_iff.1 found
  have perm := (List.getElem_cons_eraseIdx_perm inside).symm
  simp only [places, replies, filterMap_take perm, job, HandlerJob.place?, Option.toList_none,
    Multiset.coe_nil, add_zero]

/-! ### Runs -/

/-- An operation moves the one reply of a call, or the call is new and its reply is added. -/
theorem places_step (d : Dispatcher) (operation : Operation) (n : Nat)
    (single : Multiset.card (d.places n) ≤ 1) :
    (d.step operation).places n = (d.places n).map (move n operation) + d.arrival n operation := by
  have same {after : Multiset ReplyPlace} (h : after = d.places n) :
      after = (d.places n).map id + 0 := h.trans ((Multiset.map_id _).symm.trans (add_zero _).symm)
  cases operation with
  | receive call =>
    rw [move, Multiset.map_id]
    cases call with
    | auth payload => exact places_receiveAuth d payload n
    | notify payload => exact (places_receiveNotify d payload n).trans (add_zero _).symm
    | custom data => exact places_receiveCustom d data n
  | askInterest payload => exact (places_askInterest d payload n).trans (add_zero _).symm
  | install | setExecutor => exact same rfl
  | work => exact (places_work d n).trans (add_zero _).symm
  | run call =>
    have moves := moves_job places_perform (fun _ => rfl) rfl rfl d call n
    exact (moves.eq_map single).trans (add_zero _).symm
  | discard call =>
    have moves := moves_job places_discard (fun _ => rfl) rfl rfl d call n
    exact (moves.eq_map single).trans (add_zero _).symm
  | runNotification index =>
    refine same ?_
    simp only [step]
    split
    · next found =>
      exact (places_invoked ..).trans (places_eraseNotification found n)
    · rfl
  | discardNotification index =>
    refine same ?_
    simp only [step]
    split
    · next found => exact places_eraseNotification found n
    · rfl
  | useKept call resolution =>
    exact ((moves_useKept d call n resolution).eq_map single).trans (add_zero _).symm
  | useKeptCustom call result =>
    exact ((moves_useKeptCustom d call n result).eq_map single).trans (add_zero _).symm
  | resolveKept resolution => exact (places_resolveKept d resolution n).trans (add_zero _).symm

theorem card_arrival (d : Dispatcher) (n : Nat) (operation : Operation) :
    Multiset.card (d.arrival n operation) = if n = d.calls then operation.owed else 0 := by
  have one (place : ReplyPlace) : Multiset.card
      ((placeFor d.calls n place).toList : Multiset ReplyPlace) = if n = d.calls then 1 else 0 := by
    rw [placeFor]
    rcases eq_or_ne n d.calls with rfl | other
    · rw [if_pos rfl, if_pos rfl]
      rfl
    · rw [if_neg other.symm, if_neg other]
      rfl
  cases operation with
  | receive call =>
    cases call with
    | auth payload => exact one _
    | custom data => exact one _
    | notify payload => exact (ite_self 0).symm
  | _ => exact (ite_self 0).symm

/-- The reply of each call that has come in is at one place, and there is no other reply. -/
def Accounted (d : Dispatcher) : Prop :=
  ∀ n, Multiset.card (d.places n) = if n < d.calls then 1 else 0

namespace Accounted

theorem single (h : d.Accounted) (n : Nat) : Multiset.card (d.places n) ≤ 1 := by
  rw [h n]
  split
  · exact Nat.le_refl 1
  · exact Nat.zero_le 1

theorem new (codec : Codec) (executor : Executor) : (new codec executor).Accounted :=
  fun _ => rfl

theorem step (h : d.Accounted) (operation : Operation) : (d.step operation).Accounted := by
  intro n
  rw [places_step d operation n (h.single n), Multiset.card_add, Multiset.card_map, h n,
    card_arrival, calls_step]
  have at_most_one : operation.owed ≤ 1 := by
    unfold Operation.owed
    split <;> omega
  split_ifs <;> omega

theorem run (h : d.Accounted) (operations : List Operation) : (d.run operations).Accounted := by
  induction operations generalizing d with
  | nil => exact h
  | cons operation operations ih => exact ih (h.step operation)

/-- Nothing comes in for a call that has come in already. -/
theorem places_step (h : d.Accounted) {n : Nat} (known : n < d.calls) (operation : Operation) :
    (d.step operation).places n = (d.places n).map (move n operation) := by
  have no_other : d.arrival n operation = 0 := by
    rw [← Multiset.card_eq_zero, card_arrival, if_neg (Nat.ne_of_lt known)]
  rw [Dispatcher.places_step d operation n (h.single n), no_other, add_zero]

theorem places_run (h : d.Accounted) {n : Nat} {place : ReplyPlace} (known : n < d.calls)
    (there : d.places n = {place}) (operations : List Operation) :
    (d.run operations).places n = {follow n place operations} := by
  induction operations generalizing d place with
  | nil => exact there
  | cons operation operations ih =>
    refine ih (h.step operation) ?_ ?_
    · rw [calls_step]
      omega
    · rw [h.places_step known, there, Multiset.map_singleton]

end Accounted

theorem placeFor_bind {call : Nat} {place : ReplyPlace} (h : place.reply? = none) :
    (placeFor call n place).bind ReplyPlace.reply? = none := by
  rw [placeFor]
  split
  · exact h
  · rfl

/-- Of all places, those where the reply has been given show. -/
theorem filterMap_places (d : Dispatcher) (n : Nat) :
    (d.places n).filterMap ReplyPlace.reply? = d.replies n := by
  have waits (job : HandlerJob) : (job.place? n).bind ReplyPlace.reply? = none := by
    cases job with
    | auth | custom => exact placeFor_bind rfl
    | notify => rfl
  have kept (call : Nat) : (placeFor call n .kept).bind ReplyPlace.reply? = none :=
    placeFor_bind rfl
  have keptCustom (call : Nat) : (placeFor call n .keptCustom).bind ReplyPlace.reply? = none :=
    placeFor_bind rfl
  have given : ReplyPlace.reply? ∘ ReplyPlace.given = some := rfl
  simp only [places, Multiset.coe_add, Multiset.filterMap_coe, List.filterMap_append,
    List.filterMap_filterMap, List.filterMap_map, waits, kept, keptCustom, given,
    List.filterMap_none, List.filterMap_some, List.nil_append]

theorem replies_of_places {place : ReplyPlace} (there : d.places n = {place}) :
    d.replies n = place.reply?.toList := by
  have shown := filterMap_places d n
  rw [there, ← Multiset.coe_singleton, Multiset.filterMap_coe, filterMap_one] at shown
  have perm := Multiset.coe_eq_coe.1 shown
  revert perm
  cases place.reply? with
  | none => exact List.nil_perm.1
  | some reply => exact fun perm => (List.singleton_perm.1 perm).symm

/-- Without a handler that waits or keeps a reply, every reply has been given. -/
theorem Accounted.length_replies (h : d.Accounted) (known : n < d.calls) (jobs : d.jobs = [])
    (kept : d.kept = []) (keptCustom : d.keptCustom = []) : (d.replies n).length = 1 := by
  have account := h n
  rw [if_pos known] at account
  simpa [places, jobs, kept, keptCustom] using account

/-- The call that comes in next is answered where its reply gets to. -/
theorem Accounted.replies_of_arrival (h : d.Accounted) (operation : Operation)
    {place : ReplyPlace} (owed : operation.owed = 1)
    (arrives : (d.step operation).places d.calls =
      d.places d.calls + (placeFor d.calls d.calls place).toList) (after : List Operation) :
    ((d.step operation).run after).replies d.calls =
      (follow d.calls place after).reply?.toList := by
  have nothing : d.places d.calls = 0 := by
    rw [← Multiset.card_eq_zero, h, if_neg (Nat.lt_irrefl _)]
  rw [nothing, zero_add, placeFor, if_pos rfl] at arrives
  have known : d.calls < (d.step operation).calls := by
    rw [calls_step, owed]
    exact Nat.lt_succ_self _
  exact replies_of_places ((h.step operation).places_run known arrives after)

/-- The reply of every call is at one place, and it has been given once when nobody holds it any
more. What the call is answered is told by where its reply gets to, however the handlers are run or
discarded and whatever they do with the reply. -/
theorem replies_given_once (codec : Codec) (executor : Executor) (before after : List Operation) :
    let d := (new codec executor).run before
    (∀ n, Multiset.card (d.places n) = if n < d.calls then 1 else 0) ∧
    (d.jobs = [] → d.kept = [] → d.keptCustom = [] →
      ∀ n, n < d.calls → (d.replies n).length = 1) ∧
    (∀ payload, ((d.receiveAuth payload).run after).replies d.calls =
      (follow d.calls (d.authPlace payload) after).reply?.toList) ∧
    (∀ data, ((d.receiveCustom data).run after).replies d.calls =
      (follow d.calls (d.customPlace data) after).reply?.toList) := by
  intro d
  have accounted : d.Accounted := (Accounted.new codec executor).run before
  refine ⟨accounted, fun jobs kept keptCustom n known => ?_, fun payload => ?_, fun data => ?_⟩
  · exact accounted.length_replies known jobs kept keptCustom
  · exact accounted.replies_of_arrival (.receive (.auth payload)) rfl
      (places_receiveAuth d payload _) after
  · exact accounted.replies_of_arrival (.receive (.custom data)) rfl
      (places_receiveCustom d data _) after

/-- A handler keeps the reply to a custom message and fails; the reply is dropped later, and what is
sent after that is not told. A request that cannot be read has been allowed before. -/
theorem kept_reply_given_once :
    let keeps : HandlerSet := { HandlerSet.empty with customMessage := some fun _ => ⟨.keep, true⟩ }
    let d := (new .default .pool).run [.install keeps, .receive (.auth [])]
    (d.replies 0).length = 1 ∧
      ((d.receiveCustom []).run
        [.run 1, .useKeptCustom 1 none, .useKeptCustom 1 (some (.ok []))]).replies 1 =
          [.result (.error "custom message dropped without a reply")] := by
  intro keeps d
  obtain ⟨-, once, -, custom⟩ := replies_given_once .default .pool
    [.install keeps, .receive (.auth [])]
    [.run 1, .useKeptCustom 1 none, .useKeptCustom 1 (some (.ok []))]
  exact ⟨once rfl rfl rfl 0 (by decide), custom []⟩

end Dispatcher

end EndpointMonitor
