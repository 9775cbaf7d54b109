/-!
# Names of people and hands

Emoji of people and of parts of them come in five skin tones. Each name stands with the code points
of the emoji without a tone, in hexadecimal, behind an equals sign.
-/
namespace PrivilegeStore.Console.Emoji

def people : String :=
  "adult=1f9d1 baby=1f476 baby_angel=1f47c backhand_index_pointing_down=1f447
    backhand_index_pointing_left=1f448 backhand_index_pointing_right=1f449
    backhand_index_pointing_up=1f446 bearded_person=1f9d4 blond-haired_man=1f471-200d-2642-fe0f
    blond-haired_person=1f471 blond-haired_woman=1f471-200d-2640-fe0f boy=1f466
    breast-feeding=1f931 bride_with_veil=1f470 call_me_hand=1f919 child=1f9d2 clapping_hands=1f44f
    construction_worker=1f477 crossed_fingers=1f91e detective=1f575 ear=1f442 elf=1f9dd
    fairy=1f9da flexed_biceps=1f4aa folded_hands=1f64f girl=1f467 guard=1f482
    hand_with_fingers_splayed=1f590 horse_racing=1f3c7 index_pointing_up=261d
    left-facing_fist=1f91b love-you_gesture=1f91f mage=1f9d9 man=1f468 man_artist=1f468-200d-1f3a8
    man_astronaut=1f468-200d-1f680 man_biking=1f6b4-200d-2642-fe0f
    man_bouncing_ball=26f9-fe0f-200d-2642-fe0f man_bowing=1f647-200d-2642-fe0f
    man_cartwheeling=1f938-200d-2642-fe0f man_climbing=1f9d7-200d-2642-fe0f
    man_construction_worker=1f477-200d-2642-fe0f man_cook=1f468-200d-1f373 man_dancing=1f57a
    man_detective=1f575-fe0f-200d-2642-fe0f man_elf=1f9dd-200d-2642-fe0f
    man_facepalming=1f926-200d-2642-fe0f man_factory_worker=1f468-200d-1f3ed
    man_fairy=1f9da-200d-2642-fe0f man_farmer=1f468-200d-1f33e man_firefighter=1f468-200d-1f692
    man_frowning=1f64d-200d-2642-fe0f man_gesturing_no=1f645-200d-2642-fe0f
    man_gesturing_ok=1f646-200d-2642-fe0f man_getting_haircut=1f487-200d-2642-fe0f
    man_getting_massage=1f486-200d-2642-fe0f man_golfing=1f3cc-fe0f-200d-2642-fe0f
    man_guard=1f482-200d-2642-fe0f man_health_worker=1f468-200d-2695-fe0f
    man_in_lotus_position=1f9d8-200d-2642-fe0f man_in_steamy_room=1f9d6-200d-2642-fe0f
    man_in_suit_levitating=1f574 man_in_tuxedo=1f935 man_judge=1f468-200d-2696-fe0f
    man_juggling=1f939-200d-2642-fe0f man_lifting_weights=1f3cb-fe0f-200d-2642-fe0f
    man_mage=1f9d9-200d-2642-fe0f man_mechanic=1f468-200d-1f527
    man_mountain_biking=1f6b5-200d-2642-fe0f man_office_worker=1f468-200d-1f4bc
    man_pilot=1f468-200d-2708-fe0f man_playing_handball=1f93e-200d-2642-fe0f
    man_playing_water_polo=1f93d-200d-2642-fe0f man_police_officer=1f46e-200d-2642-fe0f
    man_pouting=1f64e-200d-2642-fe0f man_raising_hand=1f64b-200d-2642-fe0f
    man_rowing_boat=1f6a3-200d-2642-fe0f man_running=1f3c3-200d-2642-fe0f
    man_scientist=1f468-200d-1f52c man_shrugging=1f937-200d-2642-fe0f man_singer=1f468-200d-1f3a4
    man_student=1f468-200d-1f393 man_surfing=1f3c4-200d-2642-fe0f
    man_swimming=1f3ca-200d-2642-fe0f man_teacher=1f468-200d-1f3eb
    man_technologist=1f468-200d-1f4bb man_tipping_hand=1f481-200d-2642-fe0f
    man_vampire=1f9db-200d-2642-fe0f man_walking=1f6b6-200d-2642-fe0f
    man_wearing_turban=1f473-200d-2642-fe0f man_with_chinese_cap=1f472
    mermaid=1f9dc-200d-2640-fe0f merman=1f9dc-200d-2642-fe0f merperson=1f9dc middle_finger=1f595
    mrs._claus=1f936 nail_polish=1f485 nose=1f443 ok_hand=1f44c old_man=1f474 old_woman=1f475
    older_adult=1f9d3 oncoming_fist=1f44a open_hands=1f450 palms_up_together=1f932
    person_biking=1f6b4 person_bouncing_ball=26f9 person_bowing=1f647 person_cartwheeling=1f938
    person_climbing=1f9d7 person_facepalming=1f926 person_frowning=1f64d person_gesturing_no=1f645
    person_gesturing_ok=1f646 person_getting_haircut=1f487 person_getting_massage=1f486
    person_golfing=1f3cc person_in_bed=1f6cc person_in_lotus_position=1f9d8
    person_in_steamy_room=1f9d6 person_juggling=1f939 person_lifting_weights=1f3cb
    person_mountain_biking=1f6b5 person_playing_handball=1f93e person_playing_water_polo=1f93d
    person_pouting=1f64e person_raising_hand=1f64b person_rowing_boat=1f6a3 person_running=1f3c3
    person_shrugging=1f937 person_surfing=1f3c4 person_swimming=1f3ca person_taking_bath=1f6c0
    person_tipping_hand=1f481 person_walking=1f6b6 person_wearing_turban=1f473
    police_officer=1f46e pregnant_woman=1f930 prince=1f934 princess=1f478
    raised_back_of_hand=1f91a raised_fist=270a raised_hand=270b raising_hands=1f64c
    right-facing_fist=1f91c santa_claus=1f385 selfie=1f933 sign_of_the_horns=1f918
    snowboarder=1f3c2 thumbs_down=1f44e thumbs_up=1f44d vampire=1f9db victory_hand=270c
    vulcan_salute=1f596 waving_hand=1f44b woman=1f469 woman_artist=1f469-200d-1f3a8
    woman_astronaut=1f469-200d-1f680 woman_biking=1f6b4-200d-2640-fe0f
    woman_bouncing_ball=26f9-fe0f-200d-2640-fe0f woman_bowing=1f647-200d-2640-fe0f
    woman_cartwheeling=1f938-200d-2640-fe0f woman_climbing=1f9d7-200d-2640-fe0f
    woman_construction_worker=1f477-200d-2640-fe0f woman_cook=1f469-200d-1f373 woman_dancing=1f483
    woman_detective=1f575-fe0f-200d-2640-fe0f woman_elf=1f9dd-200d-2640-fe0f
    woman_facepalming=1f926-200d-2640-fe0f woman_factory_worker=1f469-200d-1f3ed
    woman_fairy=1f9da-200d-2640-fe0f woman_farmer=1f469-200d-1f33e
    woman_firefighter=1f469-200d-1f692 woman_frowning=1f64d-200d-2640-fe0f
    woman_gesturing_no=1f645-200d-2640-fe0f woman_gesturing_ok=1f646-200d-2640-fe0f
    woman_getting_haircut=1f487-200d-2640-fe0f woman_getting_massage=1f486-200d-2640-fe0f
    woman_golfing=1f3cc-fe0f-200d-2640-fe0f woman_guard=1f482-200d-2640-fe0f
    woman_health_worker=1f469-200d-2695-fe0f woman_in_lotus_position=1f9d8-200d-2640-fe0f
    woman_in_steamy_room=1f9d6-200d-2640-fe0f woman_judge=1f469-200d-2696-fe0f
    woman_juggling=1f939-200d-2640-fe0f woman_lifting_weights=1f3cb-fe0f-200d-2640-fe0f
    woman_mage=1f9d9-200d-2640-fe0f woman_mechanic=1f469-200d-1f527
    woman_mountain_biking=1f6b5-200d-2640-fe0f woman_office_worker=1f469-200d-1f4bc
    woman_pilot=1f469-200d-2708-fe0f woman_playing_handball=1f93e-200d-2640-fe0f
    woman_playing_water_polo=1f93d-200d-2640-fe0f woman_police_officer=1f46e-200d-2640-fe0f
    woman_pouting=1f64e-200d-2640-fe0f woman_raising_hand=1f64b-200d-2640-fe0f
    woman_rowing_boat=1f6a3-200d-2640-fe0f woman_running=1f3c3-200d-2640-fe0f
    woman_scientist=1f469-200d-1f52c woman_shrugging=1f937-200d-2640-fe0f
    woman_singer=1f469-200d-1f3a4 woman_student=1f469-200d-1f393
    woman_surfing=1f3c4-200d-2640-fe0f woman_swimming=1f3ca-200d-2640-fe0f
    woman_teacher=1f469-200d-1f3eb woman_technologist=1f469-200d-1f4bb
    woman_tipping_hand=1f481-200d-2640-fe0f woman_vampire=1f9db-200d-2640-fe0f
    woman_walking=1f6b6-200d-2640-fe0f woman_wearing_turban=1f473-200d-2640-fe0f
    woman_with_headscarf=1f9d5 writing_hand=270d"

end PrivilegeStore.Console.Emoji
