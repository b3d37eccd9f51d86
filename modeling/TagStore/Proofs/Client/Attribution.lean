import Mathlib.Data.List.Forall2
import TagStore.Proofs.Client.Attempt
import TagStore.Proofs.Client.ReplyEnd

/-!
# To which request a reply belongs

The servers answer each line with one complete reply, in order, and each attempt to connect makes a
new connection (`Record.Served`). Nothing else is assumed of the network: replies come in any
pieces, late, in part or never.

Between operations every connection in the pool is balanced: all replies to what was sent on it have
been read to their end, and nothing is left in its buffer (`Pool.Settled`). An attempt that succeeds
has therefore decoded the reply to its own request and nothing else, and a connection on which an
attempt failed is never used again (`Operation.attribution_sound`).

This needs that no line of a reply but the last opens with the field of the closing line. Where a
server breaks this, decoding stops too early.
-/

namespace TagStore

open Wire

/-- Whether bytes are a whole reply to a request, and no line of it but the last can be taken for
its closing line. -/
def Wire.Answers (request reply : Bytes) : Prop := Complete request reply ∧ Plain reply

/-- Complete replies to the same requests are told apart by where they start. -/
theorem Wire.eq_of_answers {ls rs rs' : List Bytes} {c : Bytes}
    (h : List.Forall₂ Answers ls rs) (h' : List.Forall₂ Answers ls rs')
    (hp : rs.flatten <+: rs'.flatten ++ c) : rs = rs' := by
  induction h generalizing rs' with
  | nil =>
    cases h'
    rfl
  | @cons l r ls rs hr hrs ih =>
    cases h' with
    | @cons _ r' _ rs' hr' hrs' =>
      rw [List.flatten_cons, List.flatten_cons, List.append_assoc] at hp
      obtain rfl : r = r' := by
        have h₁ : r <+: r' ++ (rs'.flatten ++ c) := (List.prefix_append _ _).trans hp
        rcases List.prefix_or_prefix_of_prefix h₁ (List.prefix_append r' _) with h | h
        · exact hr.1.eq_of_start hr'.1 h
        · exact (hr'.1.eq_of_start hr.1 h).symm
      rw [ih hrs' ((List.prefix_append_right_inj r).1 hp)]

namespace Record

/-- Each connection that is made is new, and at every moment what was received on a connection is
the start of complete replies to the lines sent on it, in their order. -/
structure Served (log : Record) : Prop where
  fresh : ∀ (k : Nat) (old : Record), Passage.opened k :: old <:+ log → ¬old.Mentions k
  answered : ∀ old : Record, old <:+ log → ∀ k, ∃ rs,
    List.Forall₂ Answers (linesOf (old.sent k)) rs ∧ old.received k <+: rs.flatten

/-- Whether whole lines were sent on a connection, and all of the replies to them received. -/
def Balanced (log : Record) (k : Nat) : Prop :=
  ∃ ls rs : List Bytes, (∀ l ∈ ls, IsLine l) ∧ log.sent k = ls.flatten ∧
    List.Forall₂ Answers ls rs ∧ log.received k = rs.flatten

variable {log new old : Record} {k : Nat}

theorem Served.of_suffix (h : log.Served) (ho : old <:+ log) : old.Served :=
  ⟨fun k o hk => h.fresh k o (hk.trans ho), fun o hk => h.answered o (hk.trans ho)⟩

theorem balanced_of_not_mentions (h : ¬log.Mentions k) : log.Balanced k :=
  ⟨[], [], by simp, sent_eq_nil h, .nil, received_eq_nil h⟩

/-- What passes over other connections leaves a connection balanced. -/
theorem Balanced.append (h : old.Balanced k) (hn : ¬new.Mentions k) :
    (new ++ old).Balanced k := by
  obtain ⟨ls, rs, hls, hs, ha, hr⟩ := h
  refine ⟨ls, rs, hls, ?_, ha, ?_⟩
  · rw [sent_append, sent_eq_nil hn, List.append_nil, hs]
  · rw [received_append, received_eq_nil hn, List.append_nil, hr]

/-- After one more line, what is received on a balanced connection is the start of one reply. -/
theorem Balanced.received_start {line : Bytes} (h : old.Balanced k) (hl : IsLine line)
    (hs : (new ++ old).Served) (hsent : new.sent k = line) :
    ∃ reply, Answers line reply ∧ new.received k <+: reply ∧
      (new.received k = reply → (new ++ old).Balanced k) := by
  obtain ⟨ls, rs, hls, hold, ha, hr⟩ := h
  have hall : ∀ l ∈ ls ++ [line], IsLine l := fun l hm => by
    rcases List.mem_append.1 hm with hm | hm
    · exact hls l hm
    · obtain rfl := List.mem_singleton.1 hm
      exact hl
  obtain ⟨rs', ha', hp⟩ := hs.answered _ (List.suffix_refl _) k
  have hlines : linesOf ((new ++ old).sent k) = ls ++ [line] := by
    have hc := linesOf_flatten hall []
    rw [List.append_nil, show linesOf [] = [] from rfl, List.append_nil] at hc
    rw [sent_append, hold, hsent, ← hc]
    simp
  rw [hlines] at ha'
  obtain ⟨rs₁, rs₂, ha₁, ha₂, rfl⟩ : ∃ rs₁ rs₂, List.Forall₂ Answers ls rs₁ ∧
      List.Forall₂ Answers [line] rs₂ ∧ rs' = rs₁ ++ rs₂ :=
    ⟨rs'.take ls.length, rs'.drop ls.length, by simpa using List.forall₂_take ls.length ha',
      by simpa using List.forall₂_drop ls.length ha', (List.take_append_drop _ _).symm⟩
  obtain ⟨reply, rs₂, hreply, hnil, rfl⟩ : ∃ reply rest, Answers line reply ∧
      List.Forall₂ Answers [] rest ∧ rs₂ = reply :: rest := by
    cases ha₂ with
    | cons h h' => exact ⟨_, _, h, h', rfl⟩
  cases hnil
  rw [received_append, hr, List.flatten_append] at hp
  obtain rfl := eq_of_answers ha ha₁ ((List.prefix_append _ _).trans hp)
  have hp := (List.prefix_append_right_inj _).1 hp
  rw [List.flatten_singleton] at hp
  refine ⟨reply, hreply, hp, ?_⟩
  intro he
  refine ⟨ls ++ [line], rs ++ [reply], hall, ?_, ?_, ?_⟩
  · rw [sent_append, hold, hsent]
    simp
  · exact List.rel_append ha (.cons hreply .nil)
  · rw [received_append, hr, he]
    simp

end Record

variable {ω α : Type} {net : Network ω}

namespace Pool

/-- What holds of a pool between attempts: its connections are known and all different, and on each
of them everything has been read that is due. -/
structure Settled (p : Pool (Recorded ω)) : Prop where
  distinct : (p.idle.map (·.link)).Nodup
  known : ∀ c ∈ p.idle, p.net.log.Mentions c.link
  balanced : ∀ c ∈ p.idle, c.buffer.unread = [] ∧ p.net.log.Balanced c.link

/-- From `p` to `p'` the record grows by `new`, and this uses only connections that `p` keeps and
new ones, which are also all that `p'` keeps. -/
structure Uses (p p' : Pool (Recorded ω)) (new : Record) : Prop where
  log : p'.net.log = new ++ p.net.log
  own : ∀ k, new.Mentions k → (∃ c ∈ p.idle, c.link = k) ∨ ¬p.net.log.Mentions k
  kept : ∀ c ∈ p'.idle, c ∈ p.idle ∨ new.Mentions c.link

/-- Whether a connection was opened and is not kept any more. -/
def Retired (p : Pool (Recorded ω)) (k : Nat) : Prop :=
  p.net.log.Mentions k ∧ ∀ c ∈ p.idle, c.link ≠ k

variable {p p₁ p' : Pool (Recorded ω)} {new new' : Record} {k : Nat}

theorem uses_of_eq (hl : p'.net.log = p.net.log) (hi : ∀ c ∈ p'.idle, c ∈ p.idle) :
    Uses p p' [] :=
  ⟨hl, fun _ h => absurd h Record.not_mentions_nil, fun c hc => .inl (hi c hc)⟩

theorem Uses.trans (h : Uses p p₁ new) (h' : Uses p₁ p' new') : Uses p p' (new' ++ new) := by
  refine ⟨by rw [h'.log, h.log, List.append_assoc], fun k hk => ?_, fun c hc => ?_⟩
  · rcases Record.mentions_append.1 hk with hk | hk
    · rcases h'.own k hk with ⟨c, hc, rfl⟩ | hn
      · rcases h.kept c hc with hc | hk
        · exact .inl ⟨c, hc, rfl⟩
        · exact h.own _ hk
      · exact .inr fun hm => hn (by rw [h.log]; exact Record.mentions_append.2 (.inr hm))
    · exact h.own k hk
  · rcases h'.kept c hc with hc | hm
    · rcases h.kept c hc with hc | hm
      · exact .inl hc
      · exact .inr (Record.mentions_append.2 (.inr hm))
    · exact .inr (Record.mentions_append.2 (.inl hm))

/-- A connection that is not kept any more is never used again. -/
theorem Retired.of_uses (hr : p.Retired k) (h : Uses p p' new) :
    ¬new.Mentions k ∧ p'.Retired k := by
  obtain ⟨hm, hi⟩ := hr
  have hn : ¬new.Mentions k := fun hn => by
    rcases h.own k hn with ⟨c, hc, rfl⟩ | hnot
    · exact hi c hc rfl
    · exact hnot hm
  refine ⟨hn, by rw [h.log]; exact Record.mentions_append.2 (.inr hm), ?_⟩
  intro c hc he
  rcases h.kept c hc with hc | hm'
  · exact hi c hc he
  · exact hn (he ▸ hm')

/-- What holds of a connection that was taken for an attempt. -/
structure Ready (p p₁ : Pool (Recorded ω)) (c : Connection) (opened : Record) : Prop where
  log : p₁.net.log = opened ++ p.net.log
  within : opened.Within c.link
  silent : opened.sent c.link = [] ∧ opened.received c.link = []
  own : (∃ c' ∈ p.idle, c'.link = c.link) ∨ ¬p.net.log.Mentions c.link
  known : p₁.net.log.Mentions c.link
  unread : c.buffer.unread = []
  balanced : p.net.log.Balanced c.link
  kept : ∀ c' ∈ p₁.idle, c' ∈ p.idle ∧ c'.link ≠ c.link
  distinct : (p₁.idle.map (·.link)).Nodup

theorem Taken.ready {c : Connection} (h : Taken p (.ok c, p₁)) (hs : p.Settled)
    (hv : p₁.net.log.Served) : ∃ opened, Ready p p₁ c opened := by
  cases h with
  | @kept _ rest _ hi hi' hl hu =>
    have hd := hs.distinct
    rw [hi, List.map_cons, List.nodup_cons] at hd
    have hc : c ∈ p.idle := by rw [hi]; exact List.mem_cons_self
    refine ⟨[], hl, fun _ he => absurd he List.not_mem_nil, ⟨rfl, rfl⟩, .inl ⟨c, hc, rfl⟩,
      hl ▸ hs.known c hc, hu, (hs.balanced c hc).2, fun c' hc' => ?_, ?_⟩
    · rw [hi'] at hc'
      exact ⟨by rw [hi]; exact List.mem_cons_of_mem _ hc',
        fun he => hd.1 (List.mem_map.2 ⟨c', hc', he⟩)⟩
    · rw [hi']
      exact hd.2
  | opened hi hl hb =>
    have hn : ¬p.net.log.Mentions c.link := hv.fresh _ _ (hl ▸ List.suffix_refl _)
    refine ⟨[.opened c.link], hl, by simp [Record.Within, Passage.link], ⟨rfl, rfl⟩, .inr hn,
      hl ▸ ⟨_, List.mem_cons_self, rfl⟩, by rw [hb]; rfl, Record.balanced_of_not_mentions hn,
      fun c' hc' => ?_, ?_⟩
    · have hc' := List.mem_of_mem_tail (hi ▸ hc')
      exact ⟨hc', fun he => hn (he ▸ hs.known c' hc')⟩
    · rw [hi, List.map_tail]
      exact hs.distinct.sublist (List.tail_sublist _)

variable {c : Connection} {opened use : Record}

/-- What is used of a connection that was taken does not touch those that are kept. -/
theorem Ready.uses (h : Ready p p₁ c opened) (hl : p'.net.log = use ++ p₁.net.log)
    (hw : use.Within c.link) (hi : ∀ c' ∈ p'.idle, c' ∈ p₁.idle ∨ c'.link = c.link ∧ use ≠ []) :
    Uses p p' (use ++ opened) := by
  have hmem : ∀ k, (use ++ opened).Mentions k → k = c.link := by
    rintro k ⟨e, he, rfl⟩
    rcases List.mem_append.1 he with he | he
    · exact hw e he
    · exact h.within e he
  refine ⟨by rw [hl, h.log, List.append_assoc], fun k hk => hmem k hk ▸ h.own, fun c' hc' => ?_⟩
  rcases hi c' hc' with hc' | ⟨he, hne⟩
  · exact .inl (h.kept c' hc').1
  · obtain ⟨e, es, rfl⟩ := List.exists_cons_of_ne_nil hne
    exact .inr ⟨e, by simp, (hw e List.mem_cons_self).trans he.symm⟩

/-- After an attempt that does not keep its connection the pool is settled, and the connection is
not kept. -/
theorem Ready.settled (h : Ready p p₁ c opened) (hs : p.Settled)
    (hl : p'.net.log = use ++ p₁.net.log) (hw : use.Within c.link) (hi : p'.idle = p₁.idle) :
    p'.Settled ∧ ∀ k, (use ++ opened).Mentions k → ∀ c' ∈ p'.idle, c'.link ≠ k := by
  have hall : (use ++ opened).Within c.link := fun e he => by
    rcases List.mem_append.1 he with he | he
    · exact hw e he
    · exact h.within e he
  have hlog : p'.net.log = use ++ opened ++ p.net.log := by rw [hl, h.log, List.append_assoc]
  refine ⟨⟨by rw [hi]; exact h.distinct, fun c' hc' => ?_, fun c' hc' => ?_⟩, ?_⟩
  · obtain ⟨hc', -⟩ := h.kept c' (hi ▸ hc')
    rw [hlog]
    exact Record.mentions_append.2 (.inr (hs.known c' hc'))
  · obtain ⟨hc', hne⟩ := h.kept c' (hi ▸ hc')
    obtain ⟨hu, hb⟩ := hs.balanced c' hc'
    rw [hlog]
    exact ⟨hu, hb.append (Record.not_mentions_of_within hall hne)⟩
  · rintro k ⟨e, he, rfl⟩ c' hc'
    rw [hall e he]
    exact (h.kept c' (hi ▸ hc')).2

/-- After an attempt that keeps its connection the pool is settled, if the connection is. -/
theorem Settled.append {c' : Connection} (hs : p₁.Settled) (hl : p'.net.log = p₁.net.log)
    (hi : p'.idle = p₁.idle ++ [c']) (hne : ∀ d ∈ p₁.idle, d.link ≠ c'.link)
    (hm : p₁.net.log.Mentions c'.link) (hu : c'.buffer.unread = [])
    (hb : p₁.net.log.Balanced c'.link) : p'.Settled := by
  have hmem : ∀ d ∈ p'.idle, d ∈ p₁.idle ∨ d = c' := fun d hd => by
    simpa [hi] using hd
  refine ⟨?_, fun d hd => ?_, fun d hd => ?_⟩
  · rw [hi, List.map_append, List.nodup_append]
    refine ⟨hs.distinct, by simp, ?_⟩
    simpa using hne
  · rw [hl]
    rcases hmem d hd with hd | rfl
    · exact hs.known d hd
    · exact hm
  · rw [hl]
    rcases hmem d hd with hd | rfl
    · exact hs.balanced d hd
    · exact ⟨hu, hb⟩

end Pool

namespace Exchange

variable {x : Exchange α} {p : Pool (Recorded ω)} {y : Except ClientError α × Pool (Recorded ω)}

/-- Whether every reply to an exchange that is decoded is taken to its end. -/
def Closes (x : Exchange α) : Prop := ∀ {reply a r'}, Answers x.request.line reply →
  x.reply .ended (.holding reply true) = (.ok a, r') → r'.buffer.unread = []

/-- Whether `a` is decoded from the reply to the request of an exchange between `p` and `p'`: on one
connection, on which all replies had been read, the request is sent and its reply received, and
this reply alone, taken to its end, gives `a`. -/
def Attributes (x : Exchange α) (p p' : Pool (Recorded ω)) (a : α) : Prop :=
  ∃ k reply l, p.net.log.Balanced k ∧ Answers x.request.line reply ∧
    p'.net.log.sent k = p.net.log.sent k ++ x.request.line ∧
    p'.net.log.received k = p.net.log.received k ++ reply ∧
    x.reply .ended (.holding reply true) = (.ok a, .holding [] l)

/-- **An attempt decodes the reply to its own request and nothing else**, and what it fails on is
not kept. -/
theorem Attempted.attributed (h : Attempted x p y) (hline : IsLine x.request.line)
    (hx : x.Closes) (hs : p.Settled) (hv : y.2.net.log.Served) :
    y.2.Settled ∧ ∃ new, Pool.Uses p y.2 new ∧
      (∀ e, y.1 = .error e → ∀ k, new.Mentions k → ∀ c ∈ y.2.idle, c.link ≠ k) ∧
      ∀ a, y.1 = .ok a → x.Attributes p y.2 a := by
  cases h with
  | @unreachable n text p' hi hl =>
    have hmem : ∀ c ∈ p'.idle, c ∈ p.idle := fun c hc => List.mem_of_mem_tail (hi ▸ hc)
    refine ⟨⟨?_, fun c hc => ?_, fun c hc => ?_⟩, [], Pool.uses_of_eq hl hmem, ?_, ?_⟩
    · rw [hi, List.map_tail]
      exact hs.distinct.sublist (List.tail_sublist _)
    · rw [hl]
      exact hs.known c (hmem c hc)
    · rw [hl]
      exact hs.balanced c (hmem c hc)
    · exact fun _ _ k hk => absurd hk Record.not_mentions_nil
    · rintro a ⟨⟩
  | @unsent c p₁ p' ws e ht hi hl hp hne hloss =>
    obtain ⟨opened, hr⟩ := ht.ready hs (hv.of_suffix (hl ▸ List.suffix_append _ _))
    obtain ⟨hset, hret⟩ := hr.settled hs hl Record.within_ofWrites hi
    refine ⟨hset, _, hr.uses hl Record.within_ofWrites fun c' hc' => .inl (hi ▸ hc'),
      fun _ _ => hret, ?_⟩
    rintro a ⟨⟩
  | @undecoded c p₁ p' ws reads e ht hi hl hf hw hn hlate =>
    rw [← List.append_assoc] at hl
    obtain ⟨opened, hr⟩ := ht.ready hs (hv.of_suffix (hl ▸ List.suffix_append _ _))
    have hw' : (reads ++ .ofWrites c.link ws : Record).Within c.link := fun e he => by
      rcases List.mem_append.1 he with he | he
      · exact hw e he
      · exact Record.within_ofWrites e he
    obtain ⟨hset, hret⟩ := hr.settled hs hl hw' hi
    refine ⟨hset, _, hr.uses hl hw' fun c' hc' => .inl (hi ▸ hc'), fun _ _ => hret, ?_⟩
    rintro a ⟨⟩
  | @decoded c c' p₁ p' ws reads a used l ht hi hl hf hw hn hk hu hm =>
    rw [← List.append_assoc] at hl
    obtain ⟨opened, hr⟩ := ht.ready hs (hv.of_suffix (hl ▸ List.suffix_append _ _))
    have hw' : (reads ++ .ofWrites c.link ws : Record).Within c.link := fun e he => by
      rcases List.mem_append.1 he with he | he
      · exact hw e he
      · exact Record.within_ofWrites e he
    have hlog : p'.net.log = (reads ++ .ofWrites c.link ws ++ opened) ++ p.net.log := by
      rw [hl, hr.log, List.append_assoc _ opened]
    -- on its connection the attempt sends its line and receives what it reads
    have hsent : Record.sent c.link (reads ++ .ofWrites c.link ws ++ opened) = x.request.line := by
      rw [Record.sent_append, Record.sent_append, hr.silent.1, Record.sent_ofWrites,
        Record.sent_eq_nil_of_writes hn, hf]
      simp
    have hrec : Record.received c.link (reads ++ .ofWrites c.link ws ++ opened) =
        used ++ c'.buffer.unread := by
      rw [Record.received_append, Record.received_append, hr.silent.2, Record.received_ofWrites,
        ← hu, hr.unread]
      rfl
    have hv' : Record.Served ((reads ++ .ofWrites c.link ws ++ opened) ++ p.net.log) := hlog ▸ hv
    obtain ⟨reply, hans, hpre, hbal⟩ := hr.balanced.received_start hline hv' hsent
    rw [hrec] at hpre hbal
    -- so what is decoded is the start of the reply to it, and then all of it
    obtain ⟨more, rfl⟩ := (List.prefix_append used _).trans hpre
    obtain rfl : more = [] := hx hans (hm more)
    rw [List.append_nil] at hans hpre hbal
    obtain hnil : c'.buffer.unread = [] := by
      have h := hpre.length_le
      rw [List.length_append] at h
      exact List.eq_nil_of_length_eq_zero (by omega)
    rw [hnil, List.append_nil] at hbal hrec
    have hatt : x.Attributes p p' a := by
      refine ⟨c.link, used, l, hr.balanced, hans, ?_, ?_, ?_⟩
      · rw [hlog, Record.sent_append, hsent]
      · rw [hlog, Record.received_append, hrec]
      · simpa using hm []
    have hne : (reads ++ .ofWrites c.link ws : Record) ≠ [] := fun h => by
      have hws : Record.ofWrites c.link ws = [] := (List.append_eq_nil_iff.1 h).2
      rw [Record.ofWrites, List.reverse_eq_nil_iff, List.map_eq_nil_iff] at hws
      rw [hws] at hf
      exact hline.ne_nil hf.symm
    have huses : Pool.Uses p p' (reads ++ .ofWrites c.link ws ++ opened) := by
      apply hr.uses hl hw'
      intro d hd
      rcases hi with hi | ⟨hi, -⟩
      · exact .inl (hi ▸ hd)
      · rcases List.mem_append.1 (hi ▸ hd) with hd | hd
        · exact .inl hd
        · exact .inr ⟨by rw [List.mem_singleton.1 hd, hk], hne⟩
    refine ⟨?_, _, huses, fun e he => (by cases he), fun b hb => ?_⟩
    · rcases hi with hi | ⟨hi, hu'⟩
      · exact (hr.settled hs hl hw' hi).1
      · have hset : Pool.Settled { p' with idle := p₁.idle } ∧ _ :=
          hr.settled hs hl hw' rfl
        refine hset.1.append rfl hi (fun d hd => ?_) ?_ hu' ?_
        · rw [hk]
          exact (hr.kept d hd).2
        · rw [hk]
          change p'.net.log.Mentions c.link
          rw [hl]
          exact Record.mentions_append.2 (.inr hr.known)
        · rw [hk]
          change p'.net.log.Balanced c.link
          rw [hlog]
          exact hbal rfl
    · cases hb
      exact hatt

/-! ## Exchanges and operations -/

/-- One attempt of an exchange: the pool before it, what it gives, and the pool after it. -/
structure Trial (ω α : Type) where
  before : Pool ω
  result : Except ClientError α
  after : Pool ω

/-- The attempts of an exchange. -/
def trials (net : Network ω) (x : Exchange α) (p : Pool ω) : List (Trial ω α) :=
  let y := x.attempt net p
  match y.1 with
  | .ok _ => [⟨p, y.1, y.2⟩]
  | .error e =>
    if x.mode.allows e then
      let z := x.attempt net y.2
      [⟨p, y.1, y.2⟩, ⟨y.2, z.1, z.2⟩]
    else [⟨p, y.1, y.2⟩]

/-- An exchange is one attempt, or a first that fails and a second. -/
theorem trials_cases (net : Network ω) (x : Exchange α) (p : Pool ω) :
    (x.trials net p = [⟨p, (x.attempt net p).1, (x.attempt net p).2⟩] ∧
      x.run net p = x.attempt net p) ∨
    (∃ e, (x.attempt net p).1 = .error e) ∧
      x.trials net p = [⟨p, (x.attempt net p).1, (x.attempt net p).2⟩,
        ⟨(x.attempt net p).2, (x.attempt net (x.attempt net p).2).1,
          (x.attempt net (x.attempt net p).2).2⟩] ∧
      x.run net p = x.attempt net (x.attempt net p).2 := by
  rw [trials]
  rcases x.run_cases net p with ⟨hr, hn⟩ | ⟨e, he, ha, hr⟩
  · refine .inl ⟨?_, hr⟩
    cases h : (x.attempt net p).1 with
    | ok a => rfl
    | error e => exact if_neg (by rw [hn e h]; decide)
  · refine .inr ⟨⟨e, he⟩, ?_, hr⟩
    rw [he]
    exact if_pos ha

/-- The last attempt gives what the exchange gives. -/
theorem run_mem_trials (net : Network ω) (x : Exchange α) (p : Pool ω) :
    ∃ t ∈ x.trials net p, x.run net p = (t.result, t.after) := by
  rcases x.trials_cases net p with ⟨ht, hr⟩ | ⟨-, ht, hr⟩
  · exact ⟨_, by rw [ht]; exact List.mem_cons_self, hr⟩
  · exact ⟨_, by rw [ht]; exact List.mem_cons_of_mem _ List.mem_cons_self, hr⟩

/-- What an attempt comes to, seen from a later pool: a result is decoded from the reply to the
request, and the connections of an attempt that failed are not used any more. -/
structure Trial.Sound (x : Exchange α) (t : Trial (Recorded ω) α) (q : Pool (Recorded ω)) :
    Prop where
  attributed : ∀ a, t.result = .ok a → x.Attributes t.before t.after a
  abandoned : ∀ e, t.result = .error e → ∀ used later : Record,
    t.after.net.log = used ++ t.before.net.log → q.net.log = later ++ t.after.net.log →
    ∀ k, used.Mentions k → ¬later.Mentions k

theorem Attempted.sound (h : Attempted x p y) (hline : IsLine x.request.line) (hx : x.Closes)
    (hs : p.Settled) (hv : y.2.net.log.Served) {q : Pool (Recorded ω)} {new : Record}
    (hq : Pool.Uses y.2 q new) : Trial.Sound x ⟨p, y.1, y.2⟩ q := by
  obtain ⟨-, new', hu, hret, hatt⟩ := h.attributed hline hx hs hv
  refine ⟨hatt, ?_⟩
  intro e he used later hused hlater k hk
  obtain rfl : used = new' := List.append_cancel_right (hused.symm.trans hu.log)
  obtain rfl : later = new := List.append_cancel_right (hlater.symm.trans hq.log)
  have hr : y.2.Retired k := ⟨by rw [hu.log]; exact Record.mentions_append.2 (.inl hk),
    hret e he k hk⟩
  exact (hr.of_uses hq).1

variable {net : Network ω}

/-- **All attempts of an exchange are sound**, seen from any later pool. -/
theorem settled_run (h : ∀ {σ : Type} (src : Source σ) r,
      Replying.FollowsAt src (x.reply src) (x.reply .ended) r)
    (hline : IsLine x.request.line) (hx : x.Closes) (hs : p.Settled)
    (hv : (x.run net.recorded p).2.net.log.Served) :
    (x.run net.recorded p).2.Settled ∧
    (∃ new, Pool.Uses p (x.run net.recorded p).2 new) ∧
    ∀ t ∈ x.trials net.recorded p, ∀ q new, Pool.Uses (x.run net.recorded p).2 q new →
      t.Sound x q := by
  have h₁ := x.attempted net h p
  have h₂ := x.attempted net h (x.attempt net.recorded p).2
  rcases x.trials_cases net.recorded p with ⟨ht, hr⟩ | ⟨-, ht, hr⟩
  · rw [hr] at hv ⊢
    obtain ⟨hset, new, hu, -⟩ := h₁.attributed hline hx hs hv
    refine ⟨hset, ⟨new, hu⟩, ?_⟩
    intro t hmem q new hq
    obtain rfl := List.mem_singleton.1 (ht ▸ hmem)
    exact h₁.sound hline hx hs hv hq
  · rw [hr] at hv ⊢
    have hv₁ := hv.of_suffix h₂.suffix
    obtain ⟨hset, new, hu, -⟩ := h₁.attributed hline hx hs hv₁
    obtain ⟨hset', new', hu', -⟩ := h₂.attributed hline hx hset hv
    refine ⟨hset', ⟨_, hu.trans hu'⟩, ?_⟩
    intro t hmem q new'' hq
    rw [ht] at hmem
    rcases List.mem_cons.1 hmem with rfl | hmem
    · exact h₁.sound hline hx hs hv₁ (hu'.trans hq)
    · obtain rfl := List.mem_singleton.1 hmem
      exact h₂.sound hline hx hset hv hq

end Exchange

/-- A run of a client: operations one after the other, and in between whatever may happen on the
network and to the endpoints. -/
inductive Client.Runs (net : Network ω) (c₀ : Client (Recorded ω)) : Client (Recorded ω) → Prop
  | start : Runs net c₀ c₀
  | operation {α : Type} {c : Client (Recorded ω)} (op : Operation α) :
    Runs net c₀ c → Runs net c₀ (op.run net.recorded c).2
  | pause {c : Client (Recorded ω)} (w : ω) (registry : Registry) :
    Runs net c₀ c →
    Runs net c₀ { c with pool := { c.pool with net := ⟨w, c.pool.net.log⟩, registry } }

namespace Operation

theorem closes_exchange {op : Operation α} {p : Profile} {r : Request}
    (h : op.request p = .ok r) : (op.exchange p r).Closes :=
  fun hans hr => unread_of_decoded h hans.1 hans.2 hr

theorem suffix_run (net : Network ω) (op : Operation α) (c : Client (Recorded ω)) :
    c.pool.net.log <:+ (op.run net.recorded c).2.pool.net.log := by
  have hran := op.ran net.recorded c
  generalize op.run net.recorded c = y at hran ⊢
  cases hran with
  | void | unwritten => exact List.suffix_refl _
  | @exchanged r y pool profile hv hr hx =>
    have hf := fun {σ : Type} (src : Source σ) => op.followsAt_reply c.profile src
    have h₁ := ((op.exchange c.profile r).attempted net hf c.pool).suffix
    have h₂ := ((op.exchange c.profile r).attempted net hf
      ((op.exchange c.profile r).attempt net.recorded c.pool).2).suffix
    have hp : pool = ((op.exchange c.profile r).run net.recorded c.pool).2 := by rw [hx]
    subst hp
    rcases (op.exchange c.profile r).trials_cases net.recorded c.pool with ⟨-, hr⟩ | ⟨-, -, hr⟩ <;>
      rw [hr]
    · exact h₁
    · exact h₁.trans h₂

/-- An operation leaves the pool settled. -/
theorem settled_run {op : Operation α} {c : Client (Recorded ω)} (hs : c.pool.Settled)
    (hv : (op.run net.recorded c).2.pool.net.log.Served) :
    (op.run net.recorded c).2.pool.Settled ∧
      ∃ new, Pool.Uses c.pool (op.run net.recorded c).2.pool new := by
  have hran := op.ran net.recorded c
  generalize op.run net.recorded c = y at hran hv ⊢
  cases hran with
  | void | unwritten => exact ⟨hs, [], Pool.uses_of_eq rfl fun _ hc => hc⟩
  | @exchanged r y pool profile hvoid hr hx =>
    have hp : pool = ((op.exchange c.profile r).run net.recorded c.pool).2 := by rw [hx]
    subst hp
    obtain ⟨hset, hu, -⟩ := Exchange.settled_run
      (fun src => op.followsAt_reply c.profile src) (isLine_line hr) (closes_exchange hr) hs hv
    exact ⟨hset, hu⟩

end Operation

namespace Client.Runs

variable {c₀ c : Client (Recorded ω)}

theorem suffix (h : Runs net c₀ c) : c₀.pool.net.log <:+ c.pool.net.log := by
  induction h with
  | start => exact List.suffix_refl _
  | operation op _ ih => exact ih.trans (op.suffix_run net _)
  | pause w registry _ ih => exact ih

/-- **Between operations the pool is settled.** -/
theorem settled (h : Runs net c₀ c) (h₀ : c₀.pool.Settled) (hv : c.pool.net.log.Served) :
    c.pool.Settled ∧ ∃ new, Pool.Uses c₀.pool c.pool new := by
  induction h with
  | start => exact ⟨h₀, [], Pool.uses_of_eq rfl fun _ hc => hc⟩
  | operation op _ ih =>
    obtain ⟨hs, new, hu⟩ := ih (hv.of_suffix (op.suffix_run net _))
    obtain ⟨hs', new', hu'⟩ := Operation.settled_run hs hv
    exact ⟨hs', _, hu.trans hu'⟩
  | pause w registry _ ih =>
    obtain ⟨hs, new, hu⟩ := ih hv
    exact ⟨⟨hs.distinct, hs.known, hs.balanced⟩, new, ⟨hu.log, hu.own, hu.kept⟩⟩

end Client.Runs

/-- **No reply is attributed to another request.** In any run of a client whose servers answer every
line in turn, the connections kept between operations have been read to the end of their replies and
have empty buffers. What an operation gives is what one of its attempts gives; every attempt that
succeeds decodes the one reply to its own request, and the connections of one that fails are not
used again. The condition on the replies is exact: a reply that is decoded is taken to its end just
if no line of it but the last can be taken for the closing line. -/
theorem Operation.attribution_sound (net : Network ω) (c₀ c c' : Client (Recorded ω))
    (h₀ : c₀.pool.idle = []) (h : Client.Runs net c₀ c) (op : Operation α)
    (h' : Client.Runs net (op.run net.recorded c).2 c') (hv : c'.pool.net.log.Served) :
    (∀ k ∈ c.pool.idle, k.buffer.unread = [] ∧ c.pool.net.log.Balanced k.link) ∧
    ∀ r, op.request c.profile = .ok r →
      (op.isVoid = false →
        (∃ t ∈ (op.exchange c.profile r).trials net.recorded c.pool,
          (op.run net.recorded c).1 = t.result.bind op.conclude ∧
            (op.run net.recorded c).2.pool = t.after) ∧
        ∀ t ∈ (op.exchange c.profile r).trials net.recorded c.pool,
          t.Sound (op.exchange c.profile r) c'.pool) ∧
      ∀ reply a r', Complete r.line reply →
        (∀ l ∈ (linesOf reply).dropLast, op.Suffices c.profile l) →
        op.reply c.profile .ended (.holding reply true) = (.ok a, r') →
        (r'.buffer.unread = [] ↔ Plain reply) := by
  have hs₀ : c₀.pool.Settled := by
    refine ⟨by rw [h₀]; exact List.nodup_nil, fun k hk => ?_, fun k hk => ?_⟩ <;>
    · rw [h₀] at hk
      exact absurd hk List.not_mem_nil
  have hv' := hv.of_suffix h'.suffix
  obtain ⟨hs, -⟩ := h.settled hs₀ (hv'.of_suffix (op.suffix_run net c))
  refine ⟨hs.balanced, fun r hr => ⟨fun hvoid => ⟨?_, ?_⟩, fun reply a r' hc hw hd => ?_⟩⟩
  · obtain ⟨t, ht, hx⟩ := (op.exchange c.profile r).run_mem_trials net.recorded c.pool
    refine ⟨t, ht, ?_, ?_⟩
    · rw [result_run hvoid hr, hx]
    · rw [pool_run hvoid hr, hx]
  · intro t ht
    obtain ⟨hs', -⟩ := Operation.settled_run hs hv'
    obtain ⟨-, new, hu⟩ := h'.settled hs' hv
    rw [pool_run hvoid hr] at hv' hu
    obtain ⟨-, -, hsound⟩ := Exchange.settled_run
      (fun src => op.followsAt_reply c.profile src) (isLine_line hr) (closes_exchange hr) hs hv'
    exact hsound t ht _ _ hu
  · exact ⟨fun hu => plain_of_decoded hr hc hw hd hu, fun hp => unread_of_decoded hr hc hp hd⟩

/-! ## A run of two operations -/

/-- A network on which every line is answered with `0,true,8`. The state is the number of the next
connection and the bytes on their way. -/
def Network.constant : Network (Nat × Bytes) where
  now _ := 0
  wait _ s := s
  dial _ s := (.connected s.1, (s.1 + 1, []))
  reach _ _ := .accepts
  write _ b s := (.accepted b.length, (s.1, [48, 44, 116, 114, 117, 101, 44, 56, 10]))
  read _ n s := (.bytes (s.2.take n), (s.1, s.2.drop n))
  peek _ _ := .quiet
  close _ s := s
  budget _ s := s.2.length
  read_budget _ n s := by simp
  bytes_budget _ n s b h := by
    cases h
    simp only [List.length_drop, List.length_take]
    omega
  wait_budget _ _ _ := Nat.le_refl _

/-- A client of one endpoint that has not been in contact with it. -/
def Client.untried : Client (Recorded (Nat × Bytes)) where
  profile := ⟨.base64, .standard, none⟩
  pool := .empty {} false
    { nodes := [⟨⟨"a", 1⟩, false, 0, none⟩], cursor := 0, ticks := 0
      schedule := ⟨{}, by decide⟩, probes := [], nextProbe := 0 } ⟨(0, []), []⟩

/-- The client after `n` operations that ask for the greatest size. -/
def Client.asked : Nat → Client (Recorded (Nat × Bytes))
  | 0 => .untried
  | n + 1 => (Operation.init.run Network.constant.recorded (asked n)).2

/-- What passes when the greatest size is asked for twice: the second time over the same
connection. -/
theorem Client.log_asked_two : (Client.asked 2).pool.net.log =
    [.read 0 [48, 44, 116, 114, 117, 101, 44, 56, 10], .wrote 0 [48, 10],
     .read 0 [48, 44, 116, 114, 117, 101, 44, 56, 10], .wrote 0 [48, 10], .opened 0] := by
  decide +kernel

theorem Record.served_asked_two : (Client.asked 2).pool.net.log.Served := by
  have hans : Answers [48, 10] [48, 44, 116, 114, 117, 101, 44, 56, 10] :=
    ⟨⟨[48, 44, 116, 114, 117, 101, 44, 56], by decide, rfl⟩, by decide⟩
  rw [Client.log_asked_two]
  refine ⟨fun k old h => ?_, fun old h k => ?_⟩
  · simp only [List.suffix_cons_iff, List.suffix_nil, List.cons.injEq, reduceCtorEq, false_and,
      false_or, or_false] at h
    rw [h.2]
    exact not_mentions_nil
  · by_cases hk : 0 = k
    · subst hk
      simp only [List.suffix_cons_iff, List.suffix_nil] at h
      -- two lines are answered in turn
      rcases h with rfl | rfl | rfl | rfl | rfl | rfl
      · exact ⟨_, .cons hans (.cons hans .nil), by decide⟩
      · exact ⟨_, .cons hans (.cons hans .nil), by decide⟩
      · exact ⟨_, .cons hans .nil, by decide⟩
      · exact ⟨_, .cons hans .nil, by decide⟩
      · exact ⟨_, .nil, by decide⟩
      · exact ⟨_, .nil, by decide⟩
    · have hn : ¬old.Mentions k := fun ⟨e, he, hl⟩ => by
        have hm := h.subset he
        simp only [List.mem_cons, List.not_mem_nil, or_false] at hm
        rcases hm with rfl | rfl | rfl | rfl | rfl <;> exact hk hl
      rw [sent_eq_nil hn, received_eq_nil hn]
      exact ⟨[], .nil, List.nil_prefix⟩

/-- The second of two operations that ask for the greatest size decodes the reply to its own
request, on the connection that the first left in the pool. -/
theorem Operation.attribution_asked_two :
    (Client.asked 1).pool.idle ≠ [] ∧
    (∀ k ∈ (Client.asked 1).pool.idle,
      k.buffer.unread = [] ∧ (Client.asked 1).pool.net.log.Balanced k.link) ∧
    ∀ t ∈ (Operation.init.exchange (Client.asked 1).profile Profile.init).trials
        Network.constant.recorded (Client.asked 1).pool,
      t.Sound (Operation.init.exchange (Client.asked 1).profile Profile.init)
        (Client.asked 2).pool := by
  obtain ⟨hidle, hop⟩ := Operation.attribution_sound Network.constant .untried
    (Client.asked 1) (Client.asked 2) rfl (.operation .init .start) .init .start
    Record.served_asked_two
  exact ⟨by decide +kernel, hidle, ((hop Profile.init rfl).1 rfl).2⟩

end TagStore
