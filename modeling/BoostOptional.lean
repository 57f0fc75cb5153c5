import BoostOptional.Safety.Exceptions
import BoostOptional.Swap.Permutation
import BoostOptional.Conversion.Agreement
import BoostOptional.Reference.Referee
import BoostOptional.Storage.Determinate
import BoostOptional.Storage.Agreement
import BoostOptional.Noexcept.Escape
import BoostOptional.Stream.Nested
import BoostOptional.Stream.Determined
import BoostOptional.Relational.Ordering
import BoostOptional.ReferenceSpec.Rebinding
import BoostOptional.Swap.Strong
import BoostOptional.Equivalence.Renaming
import BoostOptional.Equivalence.Traces
import BoostOptional.Effect.Decomposition
import BoostOptional.Elementary.Actions
import BoostOptional.Elementary.Frame
import BoostOptional.Elementary.Histories
import BoostOptional.Engagement.Flags
import BoostOptional.Engagement.Stability
import BoostOptional.Relational.Nested
import BoostOptional.Values.Exceptions
import BoostOptional.Accessors.Safety
import BoostOptional.Accessors.Exceptions
import BoostOptional.ReferenceSpec.Values
import BoostOptional.Conversion.Implementations
import BoostOptional.Stream.LegacyNested
