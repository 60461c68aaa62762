import QccGui.Lib.Machine

/-!
# Cutting a polled stream into groups

A receiver polls a source that answers each poll with a few items or with nothing. It collects
items until it has as many as its current state needs, hands the whole group to the state, and
starts over; when too many polls in a row came back empty it drops what it has.

* `Framer`: what a group's length is, how many empty polls are tolerated, and what a full group
  and a dropped one do to the state.
* `Framer.machine`: the receiver, one poll a step.
* `Groups`: how a list of polls falls into groups; `Framer.run_groups` says that every run of the
  receiver is such a decomposition followed by one unfinished group.
* `Framer.run_peel`: the first group of a run in which nothing is dropped.
-/

namespace Lib

/-- One answer of the source, with whatever else the receiver sees at that poll. -/
structure Poll (α γ : Type) where
  env : γ
  data : List α

namespace Poll

variable {α γ : Type}

/-- The items a list of polls delivered. -/
def items (ps : List (Poll α γ)) : List α := ps.flatMap Poll.data

@[simp] theorem items_nil : items ([] : List (Poll α γ)) = [] := rfl

@[simp] theorem items_append (ps qs : List (Poll α γ)) : items (ps ++ qs) = items ps ++ items qs := by
  simp [items]

@[simp] theorem items_singleton (p : Poll α γ) : items [p] = p.data := by simp [items]

@[simp] theorem items_cons (p : Poll α γ) (ps : List (Poll α γ)) :
    items (p :: ps) = p.data ++ items ps := by simp [items]

/-- How many polls came back empty since the last one that did not. -/
def idle (ps : List (Poll α γ)) : Nat := (ps.reverse.takeWhile (·.data.isEmpty)).length

@[simp] theorem idle_nil : idle ([] : List (Poll α γ)) = 0 := rfl

theorem idle_snoc_empty {ps : List (Poll α γ)} {p : Poll α γ} (h : p.data = []) :
    idle (ps ++ [p]) = idle ps + 1 := by
  simp [idle, h]

theorem idle_snoc_data {ps : List (Poll α γ)} {p : Poll α γ} (h : p.data ≠ []) :
    idle (ps ++ [p]) = 0 := by
  simp [idle, h]

end Poll

/-- A receiver's state space `β`: the length of the group it waits for, the number of empty polls
in a row it tolerates, and what a full and a dropped group do. -/
structure Framer (α β γ : Type) where
  need : β → Nat
  limit : β → Nat
  full : β → γ → List α → β
  drop : β → γ → β

namespace Framer

variable {α β γ : Type} (F : Framer α β γ)

/-- The receiver between two polls. -/
structure Rx (α β : Type) where
  st : β
  got : List α := []
  idle : Nat := 0

/-- One poll. -/
def poll (r : Rx α β) (p : Poll α γ) : Rx α β :=
  if p.data = [] then
    if F.limit r.st < r.idle + 1 then ⟨F.drop r.st p.env, [], 0⟩ else { r with idle := r.idle + 1 }
  else if F.need r.st ≤ (r.got ++ p.data).length then ⟨F.full r.st p.env (r.got ++ p.data), [], 0⟩
  else ⟨r.st, r.got ++ p.data, 0⟩

/-- The receiver polls while it waits for a group, and is never given more than is missing. -/
def machine : Machine (Rx α β) (Poll α γ) where
  enabled r p := r.got.length < F.need r.st ∧ p.data.length ≤ F.need r.st - r.got.length
  step := F.poll

@[simp] theorem machine_step (r : Rx α β) (p : Poll α γ) : F.machine.step r p = F.poll r p := rfl

/-- A poll that makes the receiver drop its group. -/
def Drops (r : Rx α β) (p : Poll α γ) : Prop := p.data = [] ∧ F.limit r.st < r.idle + 1

section

variable {F} {r : Rx α β} {p : Poll α γ}

theorem poll_drop (hp : p.data = []) (hl : F.limit r.st < r.idle + 1) :
    F.poll r p = ⟨F.drop r.st p.env, [], 0⟩ := by
  rw [poll, if_pos hp, if_pos hl]

theorem poll_wait (hp : p.data = []) (hl : r.idle + 1 ≤ F.limit r.st) :
    F.poll r p = { r with idle := r.idle + 1 } := by
  rw [poll, if_pos hp, if_neg (by omega)]

theorem poll_full (hp : p.data ≠ []) (hn : F.need r.st ≤ r.got.length + p.data.length) :
    F.poll r p = ⟨F.full r.st p.env (r.got ++ p.data), [], 0⟩ := by
  rw [poll, if_neg hp, if_pos (by rwa [List.length_append])]

theorem poll_more (hp : p.data ≠ []) (hn : r.got.length + p.data.length < F.need r.st) :
    F.poll r p = ⟨r.st, r.got ++ p.data, 0⟩ := by
  rw [poll, if_neg hp, if_neg (by rw [List.length_append]; omega)]

/-- A poll adds at most one to the idle count. -/
theorem poll_idle_le (r : Rx α β) (p : Poll α γ) : (F.poll r p).idle ≤ r.idle + 1 := by
  unfold poll
  split
  · split
    · exact Nat.zero_le _
    · exact Nat.le_refl _
  · split <;> exact Nat.zero_le _

/-- The idle count is at most the number of polls. -/
theorem run_idle_le {tr : List (Rx α β × Poll α γ)} {r₀ r : Rx α β} (h : F.machine.Run r₀ tr r) :
    r.idle ≤ r₀.idle + tr.length := by
  induction h with
  | nil => exact Nat.le_refl _
  | @snoc tr r p _ _ ih =>
    have hp := poll_idle_le (F := F) r p
    rw [List.length_append, List.length_singleton, machine_step]
    omega

end

/-! ## Groups -/

/-- What became of a group: handed over whole, or dropped with what it had. -/
inductive Group (α γ : Type)
  | full (env : γ) (data : List α)
  | dropped (env : γ) (data : List α)

/-- Polls that leave a group of `n` items unfinished: too few items, never `limit + 1` empty polls
in a row. -/
structure Open (n limit : Nat) (ps : List (Poll α γ)) : Prop where
  short : ps = [] ∨ (Poll.items ps).length < n
  alive : ∀ qs, qs <+: ps → Poll.idle qs ≤ limit

/-- The polls of one whole group. -/
inductive Segment (n limit : Nat) : List (Poll α γ) → Group α γ → Prop
  | full {ps : List (Poll α γ)} {p : Poll α γ} : Open n limit ps → p.data ≠ [] →
      (Poll.items (ps ++ [p])).length = n →
      Segment n limit (ps ++ [p]) (.full p.env (Poll.items (ps ++ [p])))
  | dropped {ps : List (Poll α γ)} {p : Poll α γ} : Open n limit ps →
      (Poll.items ps).length < n → p.data = [] → Poll.idle ps = limit →
      Segment n limit (ps ++ [p]) (.dropped p.env (Poll.items ps))

/-- The state after a group. -/
def handle (b : β) : Group α γ → β
  | .full w g => F.full b w g
  | .dropped w _ => F.drop b w

/-- The state after several groups. -/
def handleAll (b : β) (gs : List (Group α γ)) : β := gs.foldl F.handle b

@[simp] theorem handleAll_nil (b : β) : F.handleAll b [] = b := rfl

@[simp] theorem handleAll_cons (b : β) (g : Group α γ) (gs : List (Group α γ)) :
    F.handleAll b (g :: gs) = F.handleAll (F.handle b g) gs := rfl

@[simp] theorem handleAll_append (b : β) (gs hs : List (Group α γ)) :
    F.handleAll b (gs ++ hs) = F.handleAll (F.handleAll b gs) hs := by
  simp [handleAll]

/-- The polls `ps` are the groups `gs`, one after the other, from the state `b`. -/
inductive Groups (b : β) : List (Poll α γ) → List (Group α γ) → Prop
  | nil : Groups b [] []
  | snoc {ps qs : List (Poll α γ)} {gs : List (Group α γ)} {g : Group α γ} : Groups b ps gs →
      Segment (F.need (F.handleAll b gs)) (F.limit (F.handleAll b gs)) qs g →
      Groups b (ps ++ qs) (gs ++ [g])

variable {F}

theorem open_nil {n limit : Nat} : Open n limit ([] : List (Poll α γ)) :=
  ⟨.inl rfl, fun qs h => by simp [List.prefix_nil.1 h]⟩

/-- One more poll leaves the group unfinished. -/
theorem Open.snoc {n limit : Nat} {ps : List (Poll α γ)} {p : Poll α γ} (h : Open n limit ps)
    (hs : (Poll.items (ps ++ [p])).length < n) (hi : Poll.idle (ps ++ [p]) ≤ limit) :
    Open n limit (ps ++ [p]) := by
  refine ⟨.inr hs, fun qs hq => ?_⟩
  rcases List.prefix_concat_iff.1 (by simpa using hq) with rfl | hq
  · simpa using hi
  · exact h.alive qs hq

/-- The receiver that has polled `ps` since it handed over its last group. -/
def during (b : β) (ps : List (Poll α γ)) : Rx α β := ⟨b, Poll.items ps, Poll.idle ps⟩

@[simp] theorem during_nil (b : β) : during b ([] : List (Poll α γ)) = ⟨b, [], 0⟩ := rfl

/-- What one poll does to an unfinished group: it stays unfinished, or it is closed. -/
theorem poll_during {b : β} {ps : List (Poll α γ)} {p : Poll α γ}
    (ho : Open (F.need b) (F.limit b) ps) (he : F.machine.enabled (during b ps) p) :
    (Open (F.need b) (F.limit b) (ps ++ [p]) ∧ F.poll (during b ps) p = during b (ps ++ [p])) ∨
    (∃ g, Segment (F.need b) (F.limit b) (ps ++ [p]) g ∧
      F.poll (during b ps) p = ⟨F.handle b g, [], 0⟩) := by
  obtain ⟨hlt, hle⟩ := he
  simp only [during] at hlt hle
  by_cases hp : p.data = []
  · have hidle := ho.alive ps List.prefix_rfl
    have hit : Poll.items (ps ++ [p]) = Poll.items ps := by simp [hp]
    by_cases hl : F.limit b < Poll.idle ps + 1
    · exact .inr ⟨.dropped p.env (Poll.items ps), .dropped ho hlt hp (by omega), poll_drop hp hl⟩
    · refine .inl ⟨ho.snoc (by rw [hit]; exact hlt) (by rw [Poll.idle_snoc_empty hp]; omega), ?_⟩
      rw [poll_wait hp (by simpa [during] using hl), during, during, hit, Poll.idle_snoc_empty hp]
  · have hidle : Poll.idle (ps ++ [p]) = 0 := Poll.idle_snoc_data hp
    by_cases hf : F.need b ≤ (Poll.items ps).length + p.data.length
    · refine .inr ⟨.full p.env (Poll.items (ps ++ [p])), .full ho hp ?_, ?_⟩
      · simp only [Poll.items_append, Poll.items_singleton, List.length_append]
        omega
      · rw [poll_full hp hf, during, Poll.items_append, Poll.items_singleton]
        rfl
    · refine .inl ⟨ho.snoc (by simpa using Nat.lt_of_not_le hf) (by omega), ?_⟩
      rw [poll_more hp (by simpa [during] using hf), during, during, hidle, Poll.items_append,
        Poll.items_singleton]

/-- Every run of the receiver is a sequence of groups, each handed over or dropped whole, and an
unfinished one. -/
theorem run_groups {b : β} {tr : List (Rx α β × Poll α γ)} {r : Rx α β}
    (h : F.machine.Run ⟨b, [], 0⟩ tr r) :
    ∃ ps qs gs, Machine.events tr = ps ++ qs ∧ F.Groups b ps gs ∧
      Open (F.need (F.handleAll b gs)) (F.limit (F.handleAll b gs)) qs ∧
      r = during (F.handleAll b gs) qs := by
  induction h with
  | nil => exact ⟨[], [], [], rfl, .nil, open_nil, rfl⟩
  | snoc hr he ih =>
    rename_i p
    obtain ⟨ps, qs, gs, hps, hg, ho, rfl⟩ := ih
    rcases poll_during ho he with ⟨ho', hr'⟩ | ⟨g, hseg, hr'⟩
    · exact ⟨ps, qs ++ [p], gs, by simp [hps], hg, ho', hr'⟩
    · refine ⟨ps ++ (qs ++ [p]), [], gs ++ [g], by simp [hps], .snoc hg hseg, open_nil, ?_⟩
      simpa [handleAll] using hr'

/-- Each group of a decomposition is made of the polls of one segment. -/
theorem Groups.segment {b : β} {ps : List (Poll α γ)} {gs₁ gs₂ : List (Group α γ)} {g : Group α γ}
    (h : F.Groups b ps (gs₁ ++ g :: gs₂)) :
    ∃ qs, Segment (F.need (F.handleAll b gs₁)) (F.limit (F.handleAll b gs₁)) qs g := by
  generalize hgs : gs₁ ++ g :: gs₂ = gs at h
  induction h generalizing gs₂ with
  | nil => simp at hgs
  | snoc hg hseg ih =>
    rcases List.eq_nil_or_concat gs₂ with rfl | ⟨hs, x, rfl⟩
    · obtain ⟨rfl, hx⟩ := List.append_inj' hgs rfl
      obtain rfl := (List.cons.inj hx).1
      exact ⟨_, hseg⟩
    · rw [List.concat_eq_append, ← List.cons_append, ← List.append_assoc] at hgs
      exact ih (List.append_inj' hgs rfl).1

/-! ## Runs in which nothing is dropped -/

/-- The groups of a run in which nothing is dropped were all handed over. -/
theorem run_peel {b : β} {tr : List (Rx α β × Poll α γ)} {r : Rx α β} {g rest : List α}
    (h : F.machine.Run ⟨b, [], 0⟩ tr r) (hd : Machine.Along (fun r p => ¬ F.Drops r p) tr)
    (hg : g.length = F.need b) (hn : 0 < F.need b) (hi : Poll.items (Machine.events tr) = g ++ rest) :
    ∃ tr₁ tr₂ w, tr = tr₁ ++ tr₂ ∧ F.machine.Run ⟨b, [], 0⟩ tr₁ ⟨F.full b w g, [], 0⟩ ∧
      F.machine.Run ⟨F.full b w g, [], 0⟩ tr₂ r ∧ Poll.items (Machine.events tr₁) = g ∧
      Poll.items (Machine.events tr₂) = rest := by
  -- by induction on the run: until the group is full, the receiver holds what was delivered
  suffices H : (∃ qs, Machine.events tr = qs ∧ Open (F.need b) (F.limit b) qs ∧ r = during b qs) ∨
      ∃ tr₁ tr₂ w g', tr = tr₁ ++ tr₂ ∧ F.machine.Run ⟨b, [], 0⟩ tr₁ ⟨F.full b w g', [], 0⟩ ∧
        F.machine.Run ⟨F.full b w g', [], 0⟩ tr₂ r ∧ Poll.items (Machine.events tr₁) = g' ∧
        g'.length = F.need b by
    rcases H with ⟨qs, rfl, ho, -⟩ | ⟨tr₁, tr₂, w, g', rfl, h₁, h₂, hg', hl⟩
    · rcases ho.short with hq | hq
      · rw [hq] at hi
        have := congrArg List.length hi
        simp at this
        omega
      · rw [hi] at hq
        simp at hq
        omega
    · simp only [Machine.events_append, Poll.items_append, hg'] at hi
      obtain ⟨rfl, hrest⟩ := List.append_inj hi (by omega)
      exact ⟨tr₁, tr₂, w, rfl, h₁, h₂, hg', hrest⟩
  clear hi hg
  induction h with
  | nil => exact .inl ⟨[], rfl, open_nil, rfl⟩
  | snoc hr he ih =>
    rename_i tr s p
    simp only [Machine.along_append, Machine.along_cons] at hd
    rcases ih hd.1 with ⟨qs, hqs, ho, rfl⟩ | ⟨tr₁, tr₂, w, g', rfl, h₁, h₂, hg', hl⟩
    · rcases poll_during ho he with ⟨ho', hr'⟩ | ⟨gr, hseg, hr'⟩
      · exact .inl ⟨qs ++ [p], by simp [hqs], ho', hr'⟩
      · obtain ⟨w, g', rfl, hdat, hlen⟩ : ∃ w g', gr = .full w g' ∧
            Poll.items (qs ++ [p]) = g' ∧ g'.length = F.need b := by
          generalize hqp : qs ++ [p] = qp at hseg
          cases hseg with
          | full _ _ hlen => exact ⟨_, _, rfl, rfl, hlen⟩
          | dropped ho₂ _ hp hidle =>
            obtain ⟨rfl, hpp⟩ := List.append_inj' hqp rfl
            obtain rfl := (List.cons.inj hpp).1
            exact absurd ⟨hp, by simp [during, hidle]⟩ hd.2.1
        have hrun := Machine.Run.snoc hr he
        have hstep : F.machine.step (during b qs) p = ⟨F.full b w g', [], 0⟩ := hr'
        rw [hstep] at hrun ⊢
        exact .inr ⟨_, [], w, g', (List.append_nil _).symm, hrun, .nil, by simp [hqs, ← hdat], hlen⟩
    · exact .inr ⟨tr₁, tr₂ ++ [(s, p)], w, g', by simp, h₁, h₂.snoc he, hg', hl⟩

end Framer

end Lib
