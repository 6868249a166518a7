import TradingPlatform.Library.SlidingWindow

namespace TradingPlatform.RateLimits
open SlidingWindow

/-- `requests` is a set of identifiers with the clock readings of accepted
calls; the readings and the window are in nanoseconds. -/
structure RateLimiter where
  requests : Finset (String × ℕ)
  window : ℕ
  maxRequests : ℕ

def RateLimiter.new (windowSecs maxRequests : ℕ) : RateLimiter :=
  ⟨∅, windowSecs * 1000000000, maxRequests⟩

/-- What `retain` leaves of the entries. -/
def RateLimiter.retained (limiter : RateLimiter) (identifier : String) (now : ℕ) :
    Finset (String × ℕ) :=
  limiter.requests.filter fun entry => entry.1 = identifier ∧ now - entry.2 < limiter.window

def RateLimiter.checkRateLimit (limiter : RateLimiter) (identifier : String) (now : ℕ) :
    Bool × RateLimiter :=
  let requests := limiter.retained identifier now
  let count := (requests.filter fun entry => entry.1 = identifier).card
  if limiter.maxRequests ≤ count then (false, { limiter with requests := requests })
  else (true, { limiter with requests := insert (identifier, now) requests })

/-- The answers to a sequence of calls, each beside its call. -/
def RateLimiter.answers (limiter : RateLimiter) : List (String × ℕ) → List ((String × ℕ) × Bool)
  | [] => []
  | call :: rest =>
    let (answer, limiter) := limiter.checkRateLimit call.1 call.2
    (call, answer) :: limiter.answers rest

/-- The limiter after a sequence of calls. -/
def RateLimiter.after (limiter : RateLimiter) (calls : List (String × ℕ)) : RateLimiter :=
  calls.foldl (fun limiter call => (limiter.checkRateLimit call.1 call.2).2) limiter

/-- The accepted ones of a sequence of calls. -/
def RateLimiter.accepted (limiter : RateLimiter) (calls : List (String × ℕ)) :
    List (String × ℕ) :=
  ((limiter.answers calls).filter (·.2)).map (·.1)

/-- An exact sliding window per identifier, on one sequence of calls to a new
limiter. -/
structure ExactPerIdentifier (windowSecs maxRequests : ℕ) (calls : List (String × ℕ)) : Prop where
  accepts_iff : ∀ before call rest, calls = before ++ call :: rest →
    ((((RateLimiter.new windowSecs maxRequests).after before).checkRateLimit call.1 call.2).1 ↔
      (held (windowSecs * 1000000000)
        ((RateLimiter.new windowSecs maxRequests).accepted before) call.1 call.2).length <
          maxRequests)
  independent : ∀ x,
    ((RateLimiter.new windowSecs maxRequests).answers calls).filter (·.1.1 = x) =
      (RateLimiter.new windowSecs maxRequests).answers (calls.filter (·.1 = x))
  bounded : ∀ x t,
    (held (windowSecs * 1000000000)
      ((RateLimiter.new windowSecs maxRequests).accepted calls) x t).length ≤ maxRequests

/-- The calls that the window of a call holds can be counted from the entries
that the limiter keeps: no two of them have one clock reading, and none of
them came before a call for another identifier. -/
structure Countable (window limit : ℕ) (before : List (String × ℕ)) (call : String × ℕ) :
    Prop where
  distinct : (held window (admitted window limit before) call.1 call.2).Nodup
  uninterrupted : held window
    (admitted window limit (before.rdropWhile (·.1 = call.1))) call.1 call.2 = []

/-- Wherever an exact sliding window is full, its calls are countable. -/
def FullWindowsCountable (window limit : ℕ) (calls : List (String × ℕ)) : Prop :=
  ∀ before call rest, calls = before ++ call :: rest →
    ¬admits window limit (admitted window limit before) call → Countable window limit before call

section Answers
variable {limiter : RateLimiter} {calls : List (String × ℕ)}

theorem RateLimiter.after_snoc (limiter : RateLimiter) (calls : List (String × ℕ))
    (call : String × ℕ) : limiter.after (calls ++ [call]) =
      ((limiter.after calls).checkRateLimit call.1 call.2).2 := by
  simp [after]

theorem RateLimiter.answers_snoc (limiter : RateLimiter) (calls : List (String × ℕ))
    (call : String × ℕ) : limiter.answers (calls ++ [call]) =
      limiter.answers calls ++ [(call, ((limiter.after calls).checkRateLimit call.1 call.2).1)] := by
  induction calls generalizing limiter with
  | nil => rfl
  | cons first rest ih =>
    simp only [List.cons_append, answers, ih, after, List.foldl_cons]

theorem RateLimiter.accepted_snoc (limiter : RateLimiter) (calls : List (String × ℕ))
    (call : String × ℕ) : limiter.accepted (calls ++ [call]) =
      if ((limiter.after calls).checkRateLimit call.1 call.2).1 then limiter.accepted calls ++ [call]
      else limiter.accepted calls := by
  unfold accepted
  rw [answers_snoc, List.filter_append, List.map_append]
  cases answer : ((limiter.after calls).checkRateLimit call.1 call.2).1 <;> simp

end Answers

section Recalled
variable {window limit : ℕ}

/-- The admitted calls since the last call for an identifier other than `x`. -/
def recalled (window limit : ℕ) (x : String) (calls : List (String × ℕ)) : List (String × ℕ) :=
  (admitted window limit calls).drop
    (admitted window limit (calls.rdropWhile (·.1 = x))).length

theorem admitted_eq_append_recalled (window limit : ℕ) (x : String)
    (calls : List (String × ℕ)) :
    admitted window limit calls =
      admitted window limit (calls.rdropWhile (·.1 = x)) ++ recalled window limit x calls :=
  (List.prefix_iff_eq_append.mp (admitted_mono (List.rdropWhile_prefix _ _))).symm

theorem recalled_snoc_own {x : String} {call : String × ℕ} (own : call.1 = x)
    (calls : List (String × ℕ)) : recalled window limit x (calls ++ [call]) =
      if admits window limit (admitted window limit calls) call then
        recalled window limit x calls ++ [call]
      else recalled window limit x calls := by
  have older : (calls ++ [call]).rdropWhile (·.1 = x) = calls.rdropWhile (·.1 = x) :=
    List.rdropWhile_concat_pos _ _ _ (by simpa using own)
  have shorter : (admitted window limit (calls.rdropWhile (·.1 = x))).length ≤
      (admitted window limit calls).length :=
    (admitted_mono (List.rdropWhile_prefix _ _)).length_le
  unfold recalled
  rw [older, admitted_snoc]
  split
  · rw [List.drop_append_of_le_length shorter]
  · rfl

theorem recalled_snoc_other {x : String} {call : String × ℕ} (other : call.1 ≠ x)
    (calls : List (String × ℕ)) : recalled window limit x (calls ++ [call]) = [] := by
  have none_older : (calls ++ [call]).rdropWhile (·.1 = x) = calls ++ [call] :=
    List.rdropWhile_concat_neg _ _ _ (by simpa using other)
  simp [recalled, none_older]

/-- A full window reaches the limit among the recalled calls, each reading
counted once, exactly if its calls are countable. -/
theorem limit_le_card_iff {before : List (String × ℕ)} {call : String × ℕ}
    (ordered : before.Pairwise (·.2 ≤ ·.2))
    (full : ¬admits window limit (admitted window limit before) call) :
    limit ≤ (held window (recalled window limit call.1 before) call.1 call.2).toFinset.card ↔
      Countable window limit before call := by
  have most : (held window (admitted window limit before) call.1 call.2).length ≤ limit :=
    length_held_admitted_le ordered call.1 call.2
  have least : limit ≤ (held window (admitted window limit before) call.1 call.2).length :=
    Nat.le_of_not_lt full
  have parts := congrArg (held window · call.1 call.2)
    (admitted_eq_append_recalled window limit call.1 before)
  simp only [held_append] at parts
  have lengths := congrArg List.length parts
  rw [List.length_append] at lengths
  have collapsed := (held window (recalled window limit call.1 before)
    call.1 call.2).toFinset_card_le
  constructor
  · intro reaches
    have nothing : held window
        (admitted window limit (before.rdropWhile (·.1 = call.1))) call.1 call.2 = [] :=
      List.eq_nil_of_length_eq_zero (by omega)
    refine ⟨?_, nothing⟩
    rw [parts, nothing, List.nil_append]
    have alike : (held window (recalled window limit call.1 before) call.1 call.2).toFinset.card =
        (held window (recalled window limit call.1 before) call.1 call.2).length := by omega
    exact Multiset.coe_nodup.mp (Multiset.toFinset_card_eq_card_iff_nodup.mp alike)
  · intro countable
    rw [parts, countable.uninterrupted, List.nil_append] at least
    have apart := countable.distinct
    rw [parts, countable.uninterrupted, List.nil_append] at apart
    rwa [List.toFinset_card_of_nodup apart]

end Recalled

section Following
variable {windowSecs maxRequests : ℕ} {calls : List (String × ℕ)}

/-- The limiter has accepted what an exact sliding window admits, and keeps
what it recalls of it. -/
structure FollowsExact (windowSecs maxRequests : ℕ) (calls : List (String × ℕ)) : Prop where
  accepted : (RateLimiter.new windowSecs maxRequests).accepted calls =
    admitted (windowSecs * 1000000000) maxRequests calls
  retained : ∀ x t, (∀ call ∈ calls, call.2 ≤ t) →
    ((RateLimiter.new windowSecs maxRequests).after calls).retained x t =
      (held (windowSecs * 1000000000)
        (recalled (windowSecs * 1000000000) maxRequests x calls) x t).toFinset

/-- Only entries of the identifier are left when they are counted. -/
theorem checkRateLimit_eq (limiter : RateLimiter) (identifier : String) (now : ℕ) :
    limiter.checkRateLimit identifier now =
      if limiter.maxRequests ≤ (limiter.retained identifier now).card then
        (false, { limiter with requests := limiter.retained identifier now })
      else
        (true, { limiter with
          requests := insert (identifier, now) (limiter.retained identifier now) }) := by
  have all : (limiter.retained identifier now).filter (fun entry => entry.1 = identifier) =
      limiter.retained identifier now := by
    refine Finset.filter_true_of_mem fun entry kept => ?_
    exact (Finset.mem_filter.mp kept).2.1
  simp only [RateLimiter.checkRateLimit, all]

theorem checkRateLimit_requests (limiter : RateLimiter) (call : String × ℕ) :
    (limiter.checkRateLimit call.1 call.2).2.requests =
      if (limiter.checkRateLimit call.1 call.2).1 then
        insert call (limiter.retained call.1 call.2)
      else limiter.retained call.1 call.2 := by
  rw [checkRateLimit_eq]
  split <;> rfl

@[simp] theorem after_window (calls : List (String × ℕ)) :
    ((RateLimiter.new windowSecs maxRequests).after calls).window = windowSecs * 1000000000 := by
  induction calls using List.reverseRecOn with
  | nil => rfl
  | append_singleton calls call ih =>
    rw [RateLimiter.after_snoc, checkRateLimit_eq]
    split <;> exact ih

@[simp] theorem after_maxRequests (calls : List (String × ℕ)) :
    ((RateLimiter.new windowSecs maxRequests).after calls).maxRequests = maxRequests := by
  induction calls using List.reverseRecOn with
  | nil => rfl
  | append_singleton calls call ih =>
    rw [RateLimiter.after_snoc, checkRateLimit_eq]
    split <;> exact ih

theorem mem_retained {limiter : RateLimiter} {x : String} {t : ℕ} {entry : String × ℕ} :
    entry ∈ limiter.retained x t ↔
      entry ∈ limiter.requests ∧ entry.1 = x ∧ t - entry.2 < limiter.window := by
  simp [RateLimiter.retained]

theorem FollowsExact.nil : FollowsExact windowSecs maxRequests [] where
  accepted := rfl
  retained x t _ := by
    have none_kept : (RateLimiter.new windowSecs maxRequests).retained x t = ∅ :=
      Finset.filter_empty _
    simpa [RateLimiter.after, recalled, admitted, held] using none_kept

/-- The answer to the next call. -/
theorem FollowsExact.answer_iff (follows : FollowsExact windowSecs maxRequests calls)
    {call : String × ℕ} (latest : ∀ earlier ∈ calls, earlier.2 ≤ call.2) :
    (((RateLimiter.new windowSecs maxRequests).after calls).checkRateLimit call.1 call.2).1 ↔
      (held (windowSecs * 1000000000) (recalled (windowSecs * 1000000000) maxRequests call.1 calls)
        call.1 call.2).toFinset.card < maxRequests := by
  rw [checkRateLimit_eq, follows.retained _ _ latest, after_maxRequests]
  split <;> simp <;> omega

/-- The limiter answers as an exact sliding window does unless the window is
full and its calls are not countable. -/
theorem FollowsExact.exact_iff (follows : FollowsExact windowSecs maxRequests calls)
    {call : String × ℕ} (ordered : calls.Pairwise (·.2 ≤ ·.2))
    (latest : ∀ earlier ∈ calls, earlier.2 ≤ call.2) :
    ((((RateLimiter.new windowSecs maxRequests).after calls).checkRateLimit call.1 call.2).1 ↔
      admits (windowSecs * 1000000000) maxRequests
        (admitted (windowSecs * 1000000000) maxRequests calls) call) ↔
    (¬admits (windowSecs * 1000000000) maxRequests
        (admitted (windowSecs * 1000000000) maxRequests calls) call →
      Countable (windowSecs * 1000000000) maxRequests calls call) := by
  rw [follows.answer_iff latest]
  by_cases admission : admits (windowSecs * 1000000000) maxRequests
      (admitted (windowSecs * 1000000000) maxRequests calls) call
  · have parts := congrArg (fun log => (held (windowSecs * 1000000000) log call.1 call.2).length)
      (admitted_eq_append_recalled (windowSecs * 1000000000) maxRequests call.1 calls)
    simp only [held_append, List.length_append] at parts
    have room : (held (windowSecs * 1000000000)
        (admitted (windowSecs * 1000000000) maxRequests calls) call.1 call.2).length <
          maxRequests := admission
    have collapsed := (held (windowSecs * 1000000000)
      (recalled (windowSecs * 1000000000) maxRequests call.1 calls) call.1 call.2).toFinset_card_le
    have fewer : (held (windowSecs * 1000000000)
        (recalled (windowSecs * 1000000000) maxRequests call.1 calls)
          call.1 call.2).toFinset.card < maxRequests := by omega
    simp [admission, fewer]
  · rw [← limit_le_card_iff ordered admission]
    simp [admission]

theorem FollowsExact.snoc (follows : FollowsExact windowSecs maxRequests calls)
    {call : String × ℕ} (latest : ∀ earlier ∈ calls, earlier.2 ≤ call.2)
    (exact : (((RateLimiter.new windowSecs maxRequests).after calls).checkRateLimit
        call.1 call.2).1 ↔
      admits (windowSecs * 1000000000) maxRequests
        (admitted (windowSecs * 1000000000) maxRequests calls) call) :
    FollowsExact windowSecs maxRequests (calls ++ [call]) where
  accepted := by
    rw [RateLimiter.accepted_snoc, admitted_snoc, follows.accepted]
    by_cases admission : admits (windowSecs * 1000000000) maxRequests
      (admitted (windowSecs * 1000000000) maxRequests calls) call
    · rw [if_pos (exact.mpr admission), if_pos admission]
    · rw [if_neg (fun answer => admission (exact.mp answer)), if_neg admission]
  retained x t later := by
    have reached : call.2 ≤ t := later call (by simp)
    have kept := follows.retained call.1 call.2 latest
    have past : ∀ entry ∈ recalled (windowSecs * 1000000000) maxRequests call.1 calls,
        entry.2 ≤ call.2 := fun entry member =>
      latest entry (mem_of_mem_admitted (List.mem_of_mem_drop member))
    ext entry
    rw [mem_retained, after_window, RateLimiter.after_snoc, checkRateLimit_requests, kept,
      List.mem_toFinset, mem_held]
    by_cases own : call.1 = x
    · rw [recalled_snoc_own own, ← own]
      by_cases admission : admits (windowSecs * 1000000000) maxRequests
        (admitted (windowSecs * 1000000000) maxRequests calls) call
      · rw [if_pos (exact.mpr admission), if_pos admission, Finset.mem_insert, List.mem_toFinset,
          mem_held, List.mem_append, List.mem_singleton]
        constructor
        · rintro ⟨rfl | ⟨member, -, earlier, -⟩, same, near⟩
          · exact ⟨.inr rfl, same, by omega⟩
          · exact ⟨.inl member, same, by omega⟩
        · rintro ⟨member | rfl, same, earlier, near⟩
          · have before := past entry member
            exact ⟨.inr ⟨member, same, before, by omega⟩, same, by omega⟩
          · exact ⟨.inl rfl, same, by omega⟩
      · rw [if_neg (fun answer => admission (exact.mp answer)), if_neg admission,
          List.mem_toFinset, mem_held]
        constructor
        · rintro ⟨⟨member, -, earlier, -⟩, same, near⟩
          exact ⟨member, same, by omega⟩
        · rintro ⟨member, same, earlier, near⟩
          have before := past entry member
          exact ⟨⟨member, same, before, by omega⟩, same, by omega⟩
    · -- nothing is left of any identifier but that of the last call
      have lastOnly : ∀ e ∈ (if (((RateLimiter.new windowSecs maxRequests).after
          calls).checkRateLimit call.1 call.2).1 then
            insert call (held (windowSecs * 1000000000)
              (recalled (windowSecs * 1000000000) maxRequests call.1 calls)
                call.1 call.2).toFinset
          else (held (windowSecs * 1000000000)
            (recalled (windowSecs * 1000000000) maxRequests call.1 calls)
              call.1 call.2).toFinset), e.1 = call.1 := by
        intro e member
        split at member <;> simp only [Finset.mem_insert, List.mem_toFinset, mem_held] at member
        · rcases member with rfl | ⟨-, same, -⟩
          · rfl
          · exact same
        · exact member.2.1
      rw [recalled_snoc_other own]
      constructor
      · rintro ⟨member, same, -⟩
        exact absurd ((lastOnly entry member).symm.trans same) own
      · simp

end Following

section Exactness
variable {windowSecs maxRequests : ℕ} {calls : List (String × ℕ)}

theorem sorted_and_latest {call : String × ℕ} {rest : List (String × ℕ)}
    (ordered : (calls ++ call :: rest).Pairwise (·.2 ≤ ·.2)) :
    calls.Pairwise (·.2 ≤ ·.2) ∧ ∀ earlier ∈ calls, earlier.2 ≤ call.2 := by
  obtain ⟨sorted, -, latest⟩ := List.pairwise_append.mp ordered
  exact ⟨sorted, fun earlier member => latest earlier member call List.mem_cons_self⟩

theorem FullWindowsCountable.of_append {window limit : ℕ} {rest : List (String × ℕ)}
    (countable : FullWindowsCountable window limit (calls ++ rest)) :
    FullWindowsCountable window limit calls := by
  intro before call later parts
  refine countable before call (later ++ rest) ?_
  rw [parts]
  simp

theorem FullWindowsCountable.filter {window limit : ℕ}
    (countable : FullWindowsCountable window limit calls) (x : String) :
    FullWindowsCountable window limit (calls.filter (·.1 = x)) := by
  intro before call later parts full
  obtain ⟨front, back, rfl, rfl, tail⟩ := List.filter_eq_append_iff.mp parts
  obtain ⟨skipped, rest, rfl, others, own, -⟩ := List.filter_eq_cons_iff.mp tail
  have own : call.1 = x := by simpa using own
  have skips : skipped.filter (·.1 = x) = [] := List.filter_eq_nil_iff.mpr others
  have same : held window (admitted window limit (front.filter (·.1 = x))) call.1 call.2 =
      held window (admitted window limit (front ++ skipped)) call.1 call.2 := by
    rw [← held_filter (admitted window limit (front ++ skipped)), own, admitted_filter,
      List.filter_append, skips, List.append_nil]
  have counted := countable (front ++ skipped) call rest (by simp)
    (by unfold admits at full ⊢; rwa [← same])
  refine ⟨by rw [same]; exact counted.distinct, ?_⟩
  have none_other : (front.filter (·.1 = x)).rdropWhile (·.1 = call.1) = [] := by
    refine List.rdropWhile_eq_nil_iff.mpr fun e member => ?_
    rw [own]
    exact (List.mem_filter.mp member).2
  rw [none_other]
  rfl

theorem FollowsExact.of_countable (ordered : calls.Pairwise (·.2 ≤ ·.2))
    (countable : FullWindowsCountable (windowSecs * 1000000000) maxRequests calls) :
    FollowsExact windowSecs maxRequests calls := by
  induction calls using List.reverseRecOn with
  | nil => exact .nil
  | append_singleton calls call ih =>
    obtain ⟨sorted, latest⟩ := sorted_and_latest ordered
    have follows := ih sorted countable.of_append
    exact follows.snoc latest ((follows.exact_iff sorted latest).mpr (countable calls call [] rfl))

theorem FollowsExact.of_exact (ordered : calls.Pairwise (·.2 ≤ ·.2))
    (exact : ∀ before call rest, calls = before ++ call :: rest →
      ((((RateLimiter.new windowSecs maxRequests).after before).checkRateLimit call.1 call.2).1 ↔
        (held (windowSecs * 1000000000)
          ((RateLimiter.new windowSecs maxRequests).accepted before) call.1 call.2).length <
            maxRequests)) :
    FollowsExact windowSecs maxRequests calls := by
  induction calls using List.reverseRecOn with
  | nil => exact .nil
  | append_singleton calls call ih =>
    obtain ⟨sorted, latest⟩ := sorted_and_latest ordered
    have follows := ih sorted fun before earlier rest parts =>
      exact before earlier (rest ++ [call]) (by rw [parts]; simp)
    have last := exact calls call [] rfl
    rw [follows.accepted] at last
    exact follows.snoc latest last

theorem answers_filter (ordered : calls.Pairwise (·.2 ≤ ·.2))
    (countable : FullWindowsCountable (windowSecs * 1000000000) maxRequests calls) (x : String) :
    ((RateLimiter.new windowSecs maxRequests).answers calls).filter (·.1.1 = x) =
      (RateLimiter.new windowSecs maxRequests).answers (calls.filter (·.1 = x)) := by
  induction calls using List.reverseRecOn with
  | nil => rfl
  | append_singleton calls call ih =>
    obtain ⟨sorted, latest⟩ := sorted_and_latest ordered
    rw [RateLimiter.answers_snoc, List.filter_append, List.filter_append,
      ih sorted countable.of_append]
    by_cases own : call.1 = x
    · have follows := FollowsExact.of_countable sorted countable.of_append
      have whole := (follows.exact_iff sorted latest).mpr (countable calls call [] rfl)
      have alone : FullWindowsCountable (windowSecs * 1000000000) maxRequests
          (calls.filter (·.1 = x) ++ [call]) := by
        simpa [List.filter_append, own] using countable.filter x
      have ownSorted := sorted.filter (·.1 = x)
      have ownLatest : ∀ earlier ∈ calls.filter (·.1 = x), earlier.2 ≤ call.2 := fun e member =>
        latest e (List.mem_filter.mp member).1
      have ownFollows := FollowsExact.of_countable ownSorted alone.of_append
      have single := (ownFollows.exact_iff ownSorted ownLatest).mpr
        (alone (calls.filter (·.1 = x)) call [] rfl)
      have alike : admits (windowSecs * 1000000000) maxRequests
          (admitted (windowSecs * 1000000000) maxRequests (calls.filter (·.1 = x))) call ↔
          admits (windowSecs * 1000000000) maxRequests
            (admitted (windowSecs * 1000000000) maxRequests calls) call := by
        unfold admits
        rw [← admitted_filter, own, held_filter]
      have agree := Bool.eq_iff_iff.mpr (whole.trans (alike.symm.trans single.symm))
      have kept : [call].filter (·.1 = x) = [call] := by simp [own]
      rw [kept, RateLimiter.answers_snoc, agree]
      simp [own]
    · simp [own]

/-- The limiter is an exact sliding window per identifier on exactly those
sequences of calls on which the calls of every full window can be counted from
what it keeps. -/
theorem exactPerIdentifier_iff (windowSecs maxRequests : ℕ) (calls : List (String × ℕ))
    (ordered : calls.Pairwise (·.2 ≤ ·.2)) :
    ExactPerIdentifier windowSecs maxRequests calls ↔
      FullWindowsCountable (windowSecs * 1000000000) maxRequests calls := by
  constructor
  · intro exact before call rest parts
    obtain ⟨sorted, latest⟩ := sorted_and_latest (parts ▸ ordered)
    have follows : FollowsExact windowSecs maxRequests before :=
      .of_exact sorted fun front earlier back split => by
        refine exact.accepts_iff front earlier (back ++ call :: rest) ?_
        rw [parts, split]
        simp
    have decided := exact.accepts_iff before call rest parts
    rw [follows.accepted] at decided
    exact (follows.exact_iff sorted latest).mp decided
  · intro countable
    refine ⟨?_, answers_filter ordered countable, ?_⟩
    · intro before call rest parts
      obtain ⟨sorted, latest⟩ := sorted_and_latest (parts ▸ ordered)
      rw [parts] at countable
      have follows := FollowsExact.of_countable sorted countable.of_append
      rw [follows.accepted]
      exact (follows.exact_iff sorted latest).mpr (countable before call rest rfl)
    · intro x t
      rw [(FollowsExact.of_countable ordered countable).accepted]
      exact length_held_admitted_le ordered x t

/-- One identifier alone, at distinct readings. -/
theorem exactPerIdentifier_iff_alone :
    ExactPerIdentifier 60 2 [("subscribe", 5), ("subscribe", 7), ("subscribe", 9)] ↔
      FullWindowsCountable (60 * 1000000000) 2
        [("subscribe", 5), ("subscribe", 7), ("subscribe", 9)] :=
  exactPerIdentifier_iff 60 2 _ (by decide)

/-- Another identifier's call makes the limiter forget a full window. -/
theorem not_exactPerIdentifier_forgotten :
    ¬∀ (windowSecs maxRequests : ℕ) (calls : List (String × ℕ)), calls.Pairwise (·.2 ≤ ·.2) →
      ExactPerIdentifier windowSecs maxRequests calls := by
  intro all
  have exact := all 60 1 [("a", 1), ("b", 2), ("a", 3)] (by decide)
  have decided := exact.accepts_iff [("a", 1), ("b", 2)] ("a", 3) [] rfl
  revert decided
  decide

end Exactness

end TradingPlatform.RateLimits
